import Cowork.Fencing

/-!
Lease and lifecycle of a Task Run fit together: a run has a lease exactly when it has
the time the lease ends, and an ended run has none. The time a run finished is never
taken back, so a failed run that is recovered goes on carrying it.
-/
namespace Cowork.Lifecycle
open Json ControlModels Contracts RunState Effects ControlStore Tables ControlService Placement Transitions StoreFrames
open RunChanges ServiceSteps Fencing

structure LeaseCoherent (run : TaskRun) : Prop where
  paired : run.leaseId = none ↔ run.leaseExpiresAt = none
  released : run.status.terminal = true → run.leaseId = none

def FinishCoherent (run : TaskRun) : Prop := run.finishedAt ≠ none → run.status.terminal = true

variable {run after : TaskRun} {P : TaskRun → Prop}

theorem transitionRun_leaseCoherent {now : Time} {target : RunStatus} {error : Option String}
    (ok : transitionRun now target error run = .ok after) (before : LeaseCoherent run) : LeaseCoherent after := by
  rcases transitionRun_ok ok with ⟨_,rfl⟩ | ⟨_,_,rfl⟩
  · exact before
  · cases ended : target.terminal with
    | true => exact ⟨by simp [moved,ended],by simp [moved,ended]⟩
    | false => exact ⟨by simpa [moved,ended] using before.paired,by simp [moved,ended]⟩

theorem superseded_leaseCoherent (mode : ResumeMode) (run : TaskRun) : LeaseCoherent (superseded mode run) :=
  ⟨by simp [superseded],by simp [superseded]⟩

theorem change_leaseCoherent {env : Env} {label : Label} (change : Change env label run after)
    (before : LeaseCoherent run) : LeaseCoherent after := by
  cases change with
  | @claim now expires leaseId run after waiting ok =>
    have held : LeaseCoherent (leased leaseId.text expires run) := by
      refine ⟨by simp [leased],fun ended => ?_⟩
      rcases waiting with status | status <;> simp [leased,status,RunStatus.terminal] at ended
    have kept := transitionRun_leaseCoherent ok held
    exact ⟨kept.paired,kept.released⟩
  | @event now event run after fence newer ok =>
    obtain ⟨_,_,held,_⟩ := requireFence_ok fence
    have open_ : LeaseCoherent (renewed now run) :=
      ⟨by simp [renewed,held],fun ended => absurd (before.released ended) held⟩
    have kept : LeaseCoherent after := by
      rcases applyEvent_ok ok with ⟨checkpoint,rfl⟩ | ⟨_,_,_,_,moved⟩
      · exact ⟨open_.paired,open_.released⟩
      · exact transitionRun_leaseCoherent moved open_
    exact ⟨kept.paired,kept.released⟩
  | @expire now mode run after ok =>
    rcases expireLease_ok ok with rfl | ⟨_,moved⟩
    · exact ⟨before.paired,before.released⟩
    · have kept := transitionRun_leaseCoherent moved (superseded_leaseCoherent mode run)
      exact ⟨kept.paired,kept.released⟩
  | @fence now mode target run after name ok =>
    have fenced : LeaseCoherent { superseded mode run with computerId := target } :=
      ⟨(superseded_leaseCoherent mode run).paired,(superseded_leaseCoherent mode run).released⟩
    have kept := transitionRun_leaseCoherent ok fenced
    exact ⟨kept.paired,kept.released⟩
  | reassign name queued => exact ⟨before.paired,before.released⟩
  | @set now status error run after ok =>
    have kept := transitionRun_leaseCoherent ok before
    exact ⟨kept.paired,kept.released⟩

theorem transitionRun_finishCoherent {now : Time} {target : RunStatus} {error : Option String}
    (ok : transitionRun now target error run = .ok after) (ended : target = .recovering → run.status = .failed →
    run.finishedAt = none) (before : FinishCoherent run) : FinishCoherent after := by
  grind only [moved,leaves_terminal,FinishCoherent,transitionRun]

/-- The change asks for `recovering`. -/
def Recovers : Label → Prop
  | .fence => True
  | .set status _ => status = .recovering
  | .claim _ | .event _ | .expire | .reassign => False

theorem change_finishCoherent {env : Env} {label : Label} (change : Change env label run after)
    (ended : Recovers label → run.status = .failed → run.finishedAt = none) (lease : LeaseCoherent run)
    (before : FinishCoherent run) : FinishCoherent after := by
  cases change with
  | @claim now expires leaseId run after waiting ok =>
    have held : FinishCoherent (leased leaseId.text expires run) := before
    exact (transitionRun_finishCoherent ok nofun held :)
  | @event now event run after fence newer ok =>
    obtain ⟨_,_,held,_⟩ := requireFence_ok fence
    -- A failed run holds no lease, so no event reaches it.
    have alive : run.status ≠ .failed := fun failed => held (lease.released (by rw [failed]; rfl))
    rcases applyEvent_ok ok with ⟨checkpoint,rfl⟩ | ⟨_,_,_,_,moved⟩
    · exact before
    · exact (transitionRun_finishCoherent moved (fun _ failed => absurd failed alive) before :)
  | @expire now mode run after ok =>
    rcases expireLease_ok ok with rfl | ⟨running,moved⟩
    · exact before
    · refine (transitionRun_finishCoherent moved (fun _ failed => ?_) before :)
      have failedRun : run.status = .failed := failed
      rw [failedRun] at running; cases running
  | @fence now mode target run after name ok =>
    exact (transitionRun_finishCoherent ok (fun _ failed => ended trivial failed) before :)
  | reassign name queued => exact before
  | @set now status error run after ok => exact (transitionRun_finishCoherent ok ended before :)

def AllRuns (P : TaskRun → Prop) (s : Docs) : Prop := ∀ id run, s.find .runs id = some run → P run

def Admits (P : TaskRun → Prop) (s t : Docs) : Prop := RunsFiled s ∧ AllRuns P s → RunsFiled t ∧ AllRuns P t

theorem admits_refl (P : TaskRun → Prop) (s : Docs) : Admits P s s := fun before => before
theorem admits_trans (P : TaskRun → Prop) (a b c : Docs) (first : Admits P a b) (rest : Admits P b c) : Admits P a c :=
  fun before => rest (first before)

theorem admits_of_same {s t : Docs} (same : Same .runs s t) : Admits P s t := by
  rintro ⟨filed,holds⟩
  exact ⟨fun id run found => filed id run (same.find id ▸ found),fun id run found => holds id run (same.find id ▸ found)⟩

theorem RunsKept.admits {R : TaskRun → TaskRun → Prop} {s t : Docs} (kept : RunsKept R s t)
    (keep : ∀ run after, R run after → P run → P after) : Admits P s t := by
  rintro ⟨filed,holds⟩
  refine ⟨(kept filed).1,fun id after found => ?_⟩
  obtain ⟨run,before,_⟩ := (kept filed).2.origin found
  obtain ⟨last,foundLast,held⟩ := (kept filed).2.keeps keep before (holds id run before)
  rw [found] at foundLast
  cases foundLast
  exact held

structure Unused (run : TaskRun) : Prop where
  leaseId : run.leaseId = none
  leaseExpiresAt : run.leaseExpiresAt = none
  finishedAt : run.finishedAt = none

theorem Unused.leaseCoherent (unused : Unused run) : LeaseCoherent run :=
  ⟨⟨fun _ => unused.leaseExpiresAt,fun _ => unused.leaseId⟩,fun _ => unused.leaseId⟩
theorem Unused.finishCoherent (unused : Unused run) : FinishCoherent run :=
  fun finished => absurd unused.finishedAt finished

theorem admits_put (s : Docs) {id : String} (own : run.id = id) (holds : P run) : Admits P s (s.put .runs id run) := by
  rintro ⟨filed,before⟩
  grind only [find_put_self,find_put_id,RunsFiled,AllRuns]

section
variable (env : Env) (backend : Backend) {P : TaskRun → Prop}

theorem save_admits (unused : ∀ run, Unused run → P run) (now : Time) {run : TaskRun} (new : Unused run) (s : Docs) :
    Keeps (Admits P) (save backend now .runs run) s := by
  unfold Keeps save
  split
  · exact admits_refl P s
  · exact admits_put s rfl (unused _ ⟨new.leaseId,new.leaseExpiresAt,new.finishedAt⟩)

theorem putAll_admits {entries : List Entry} (each : ∀ entry ∈ entries, ∀ run, entry = ⟨.runs,run⟩ → P run) (s : Docs) :
    Admits P s (putAll s entries) := by
  induction entries generalizing s with
  | nil => exact admits_refl P s
  | cons entry rest ih =>
    refine admits_trans P _ _ _ ?_ (ih (fun other member => each other (by simp [member])) _)
    obtain ⟨c,d⟩ := entry
    by_cases here : c = .runs
    · subst here
      exact admits_put s rfl (each _ (by simp) d rfl)
    · exact admits_of_same (put_collection s _ d here)

theorem storeCreateTaskRun_admits (unused : ∀ run, Unused run → P run) (task : CodeTask) {run : TaskRun} (new : Unused run)
    (workspaces : List ExecutionWorkspace) (s : Docs) :
    Keeps (Admits P) (ControlStore.createTaskRun backend task run workspaces) s := by
  have filed : Admits P s (putAll s (bundle task run workspaces)) := by
    grind only [putAll_admits,bundle,List.mem_cons,List.mem_map]
  unfold Keeps ControlStore.createTaskRun
  grind only [admits_refl]

theorem construct_ok {c : Collection} {d built : Model c} {s t : Docs} (ran : construct c d s = (.ok built,t)) :
    built = d ∧ t = s := by
  unfold construct at ran
  split at ran
  · cases ran; exact ⟨rfl,rfl⟩
  · cases ran

theorem createTaskRun_admits (unused : ∀ run, Unused run → P run) (now : Time) (taskId title prompt : String)
    (project : Option CodeProject) (requested : Option (List String)) (computerId : Option String) (engineId : String)
    (standalone : Option String) (setup : Option Value) (runId : String) (fresh : Nat → String) (s : Docs) :
    Keeps (Admits P)
      (createTaskRun env backend now taskId title prompt project requested computerId engineId standalone setup runId
        fresh) s := by
  refine keeps_andThen (admits_trans P) (keeps_attempt (admits_refl P) _ s) (fun scope s _ => ?_)
  refine keeps_andThen (admits_trans P) (keeps_attempt (admits_refl P) _ s) (fun resources s _ => ?_)
  refine keeps_andThen (admits_trans P)
    (admits_of_same (quiet_eligibleComputers env backend now project scope engineId s)) (fun found s _ => ?_)
  refine keeps_andThen (admits_trans P) (keeps_attempt (admits_refl P) _ s) (fun computer s _ => ?_)
  refine keeps_andThen (admits_trans P) (admits_of_same (quiet_construct .tasks _ s)) (fun task s _ => ?_)
  refine keeps_andThen (admits_trans P) (admits_of_same (quiet_construct .runs _ s)) (fun run s building => ?_)
  obtain ⟨rfl,_⟩ := construct_ok building
  refine keeps_andThen (admits_trans P) (admits_of_same (quiet_collect (fun entry => quiet_construct .workspaces _) _ s))
    (fun workspaces s _ => ?_)
  refine keeps_andThen (admits_trans P) (storeCreateTaskRun_admits backend unused task ⟨rfl,rfl,rfl⟩ workspaces s)
    (fun _ s _ => admits_refl P s)

theorem continueTask_admits (unused : ∀ run, Unused run → P run) (now : Time) (taskId previousRunId runId : String)
    (fresh : Nat → String) (s : Docs) :
    Keeps (Admits P) (continueTask env backend now taskId previousRunId runId fresh) s := by
  refine keeps_andThen (admits_trans P) (admits_of_same (quiet_get backend .runs previousRunId s)) (fun previous s _ => ?_)
  split
  · exact keeps_raise (admits_refl P) _ s
  refine keeps_andThen (admits_trans P) (admits_of_same (quiet_get backend .computers _ s)) (fun computer s _ => ?_)
  split
  · exact keeps_raise (admits_refl P) _ s
  refine keeps_andThen (admits_trans P) (admits_of_same (quiet_listFor .workspaces _ s)) (fun workspaces s _ => ?_)
  refine keeps_andThen (admits_trans P) (admits_of_same (quiet_construct .runs _ s)) (fun run s building => ?_)
  obtain ⟨rfl,_⟩ := construct_ok building
  refine keeps_andThen (admits_trans P) (save_admits backend unused now ⟨rfl,rfl,rfl⟩ s) (fun saved s _ => ?_)
  refine admits_of_same (quiet_andThen (quiet_forEach (fun entry => ?_) _) (fun _ => quiet_ret saved) s)
  refine quiet_andThen ?_ (fun record => ?_)
  · split
    · exact quiet_ret _
    · exact quiet_construct .workspaces _
  · exact quiet_andThen (quiet_save (d := .workspaces) backend now record (by decide)) (fun _ => quiet_ret ())

theorem orMissing_admits {α : Type} {wanted missing : Prog Docs Err α} {s : Docs} (first : Keeps (Admits P) wanted s)
    (rest : ∀ s, Keeps (Admits P) missing s) : Keeps (Admits P) (orMissing wanted missing) s := by
  unfold Keeps orMissing at *
  split
  · rename_i t raised
    rw [raised] at first
    exact admits_trans P _ _ _ first (rest t)
  · exact first

theorem migrateSession_admits (unused : ∀ run, Unused run → P run) (now : Time) (session : CodingSession)
    (project : Option CodeProject) (fresh : Nat → String) (s : Docs) :
    Keeps (Admits P) (migrateSession env backend now session project fresh) s := by
  refine keeps_andThen (admits_trans P) (keeps_attempt (admits_refl P) _ s) (fun scope s _ => ?_)
  refine keeps_andThen (admits_trans P) (admits_of_same (quiet_orMissing (quiet_get backend .tasks _)
    (quiet_andThen (quiet_attempt _) (fun _ => quiet_andThen (quiet_construct .tasks _) (fun task =>
      quiet_save backend now task (by decide)))) s)) (fun task s _ => ?_)
  refine keeps_andThen (admits_trans P) (orMissing_admits (admits_of_same (quiet_get backend .runs _ s)) (fun s => ?_))
    (fun run s _ => ?_)
  · refine keeps_andThen (admits_trans P) (admits_of_same (quiet_construct .runs _ s)) (fun run s building => ?_)
    obtain ⟨rfl,_⟩ := construct_ok building
    exact save_admits backend unused now ⟨rfl,rfl,rfl⟩ s
  · exact admits_of_same (quiet_andThen (quiet_listFor .workspaces run.id) (fun workspaces =>
      quiet_andThen (quiet_forEach (fun entry => quiet_andThen (quiet_construct .workspaces _) (fun record =>
        quiet_andThen (quiet_save backend now record (by decide)) (fun _ => quiet_ret ()))) _) (fun _ =>
          quiet_andThen (quiet_get backend .computers _) (fun _ => quiet_ret run))) s)

inductive LifeOp where
  | call (op : Op)
  | createTaskRun (now : Time) (taskId title prompt : String) (project : Option CodeProject)
      (requestedResourceIds : Option (List String)) (computerId : Option String) (engineId : String)
      (standaloneComputerId : Option String) (repositorySetup : Option Value) (runId : String) (fresh : Nat → String)
  | continueTask (now : Time) (taskId previousRunId runId : String) (fresh : Nat → String)
  | migrateSession (now : Time) (session : CodingSession) (project : Option CodeProject) (fresh : Nat → String)

def lifeStep (s : Docs) : LifeOp → Docs
  | .call op => step env backend s op
  | .createTaskRun now taskId title prompt project requested computerId engineId standalone setup runId fresh =>
    (createTaskRun env backend now taskId title prompt project requested computerId engineId standalone setup runId
      fresh s).2
  | .continueTask now taskId previousRunId runId fresh =>
    (continueTask env backend now taskId previousRunId runId fresh s).2
  | .migrateSession now session project fresh => (migrateSession env backend now session project fresh s).2

def Revives (s : Docs) : LifeOp → Prop
  | .call (.recoverRun _ runId _ _) =>
    ∃ run, s.find .runs runId = some run ∧ run.status = .failed ∧ run.finishedAt ≠ none
  | .call (.setRunStatus _ runId status _) =>
    status = .recovering ∧ ∃ run, s.find .runs runId = some run ∧ run.status = .failed ∧ run.finishedAt ≠ none
  | _ => False

theorem lifeStep_admits (unused : ∀ run, Unused run → P run) (s : Docs) (op : LifeOp)
    (keep : ∀ call, op = .call call → ∀ run after, By env s call run after → P run → P after) :
    Admits P s (lifeStep env backend s op) := by
  cases op with
  | call op => exact RunsKept.admits (step_kept env backend s op) (keep op rfl)
  | createTaskRun now taskId title prompt project requested computerId engineId standalone setup runId fresh =>
    exact createTaskRun_admits env backend unused now taskId title prompt project requested computerId engineId standalone
      setup runId fresh s
  | continueTask now taskId previousRunId runId fresh =>
    exact continueTask_admits env backend unused now taskId previousRunId runId fresh s
  | migrateSession now session project fresh =>
    exact migrateSession_admits env backend unused now session project fresh s

theorem lifeStep_leaseCoherent (s : Docs) (op : LifeOp) : Admits LeaseCoherent s (lifeStep env backend s op) := by
  refine lifeStep_admits env backend (fun _ unused => unused.leaseCoherent) s op ?_
  rintro call rfl run after ⟨label,_,change⟩ before
  exact change_leaseCoherent change before

theorem may_ended {s : Docs} {op : Op} (quiet : ¬Revives s (.call op)) {label : Label} {run : TaskRun}
    (may : May s op label run) (recovers : Recovers label) (failed : run.status = .failed) : run.finishedAt = none := by
  cases op with
  | acquireLease => rcases may with rfl | rfl <;> exact recovers.elim
  | claimRun | expireLeases | reassignQueuedRun => cases may; exact recovers.elim
  | acceptEvent => obtain ⟨rfl,_⟩ := may; exact recovers.elim
  | recoverRun now runId computerId allowRecreate =>
    obtain ⟨rfl,found⟩ := may
    exact not_not.mp (fun set => quiet ⟨run,found,failed,set⟩)
  | setRunStatus now runId status error =>
    obtain ⟨rfl,found⟩ := may
    exact not_not.mp (fun set => quiet ⟨recovers,run,found,failed,set⟩)
  | syncSession now session =>
    cases may
    cases status : session.status <;> rw [status] at recovers <;> cases recovers
  | claimCommands | acknowledgeCommand | queueCommand => exact may.elim

def Coherent (s : Docs) : Prop := RunsFiled s ∧ AllRuns (fun run => LeaseCoherent run ∧ FinishCoherent run) s

theorem lifeStep_coherent (s : Docs) (op : LifeOp) (before : Coherent s) (quiet : ¬Revives s op) :
    Coherent (lifeStep env backend s op) := by
  refine lifeStep_admits env backend (fun _ unused => ⟨unused.leaseCoherent,unused.finishCoherent⟩) s op ?_ before
  grind only [change_leaseCoherent,change_finishCoherent,may_ended,By]

/-- In every run of the service that starts with coherent runs, every stored run is coherent in lease and status; and
    as long as no failed run that carries its finish time is recovered, only ended runs carry one. -/
theorem lifecycle_coherent {s : Docs} (filed : RunsFiled s) (coherent : AllRuns LeaseCoherent s)
    (finished : AllRuns FinishCoherent s) (ops : List LifeOp) :
    AllRuns LeaseCoherent (reach (lifeStep env backend) s ops) ∧
      (Permitted (lifeStep env backend) (fun s op => ¬Revives s op) s ops →
        AllRuns FinishCoherent (reach (lifeStep env backend) s ops)) := by
  constructor
  · exact (always_reach (lifeStep_leaseCoherent env backend) ⟨filed,coherent⟩ ops).2
  · intro permitted
    have start : Coherent s := ⟨filed,fun id run found => ⟨coherent id run found,finished id run found⟩⟩
    have last : Coherent _ := invariant_reach (lifeStep_coherent env backend) start permitted
    exact fun id run found => (last.2 id run found).2

/-- The status that a change leads to. -/
def Label.target : Label → Option RunStatus
  | .claim _ => some .preparing
  | .event event => eventTarget event
  | .expire | .fence => some .recovering
  | .reassign => none
  | .set status _ => some status

/-- A write: the status stays, or moves to the target by one step of the table. -/
def Moved (target : Option RunStatus) (status next : RunStatus) : Prop :=
  next = status ∨ some next = target ∧ next ∈ allowedTransitions status

theorem transitionRun_moved {now : Time} {target : RunStatus} {error : Option String}
    (ok : transitionRun now target error run = .ok after) : Moved (some target) run.status after.status := by
  rcases transitionRun_ok ok with ⟨_,rfl⟩ | ⟨_,allowed,rfl⟩
  · exact .inl rfl
  · exact .inr ⟨rfl,allowed⟩

theorem change_moved {env : Env} {label : Label} (change : Change env label run after) :
    Moved (Label.target label) run.status after.status := by
  cases change with
  | claim _ ok | fence _ ok | set ok => exact (transitionRun_moved ok :)
  | reassign => exact .inl rfl
  | event _ _ ok =>
    rcases applyEvent_ok ok with ⟨_,rfl⟩ | ⟨target,_,aimed,_,moves⟩
    · exact .inl rfl
    · change Moved (eventTarget _) _ _
      rw [aimed]; exact (transitionRun_moved moves :)
  | expire ok =>
    rcases expireLease_ok ok with rfl | ⟨_,moves⟩
    · exact .inl rfl
    · exact (transitionRun_moved moves :)

/-- Writes with one target are one step of the table at most, however many they are. -/
theorem changes_moved {R : TaskRun → TaskRun → Prop} {target : Option RunStatus}
    (each : ∀ run after, R run after → Moved target run.status after.status)
    (changes : Relation.ReflTransGen R run after) : Moved target run.status after.status := by
  induction changes with
  | refl => exact .inl rfl
  | tail _ last ih =>
    rcases each _ _ last with same | ⟨aimed,allowed⟩
    · rw [same]; exact ih
    · rcases ih with same | ⟨before,reached⟩
      · exact .inr ⟨aimed,same ▸ allowed⟩
      · have again := Option.some.inj (aimed.trans before.symm)
        exact .inr ⟨aimed,again ▸ reached⟩

theorem RunsBy.moved {s t : Docs} {R : TaskRun → TaskRun → Prop} {id : String} {target : Option RunStatus}
    (changes : RunsBy R s t) (found : s.find .runs id = some run)
    (each : ∀ run after, R run after → Moved target run.status after.status) :
    ∃ later, t.find .runs id = some later ∧ Moved target run.status later.status := by
  rcases changes id with ⟨missing,_⟩ | ⟨before,later,foundS,foundT,changed⟩
  · cases found.symm.trans missing
  · cases found.symm.trans foundS
    exact ⟨later,foundT,changes_moved each changed⟩

/-- What a call does to a status: nothing, one step of the table, or, where a lease is asked for, the step to
    `recovering` of a lease that ran out and the claim. -/
inductive Moves : Op → RunStatus → RunStatus → Prop
  | stays (op : Op) (status : RunStatus) : Moves op status status
  | moves (op : Op) {status next : RunStatus} (allowed : next ∈ allowedTransitions status) : Moves op status next
  | reclaims {choose : Chooser} {now : Time} {computerId : String} {leaseId : Token} {status : RunStatus}
    (lapsed : .recovering ∈ allowedTransitions status) :
    Moves (.acquireLease choose now computerId leaseId) status .preparing

theorem Moved.moves {op : Op} {target : Option RunStatus} {status next : RunStatus} (moved : Moved target status next) :
    Moves op status next := by
  rcases moved with rfl | ⟨_,allowed⟩
  · exact .stays op next
  · exact .moves op allowed

theorem step_moves {s : Docs} {id : String} (filed : RunsFiled s) (found : s.find .runs id = some run) (op : Op) :
    ∃ later, (step env backend s op).find .runs id = some later ∧ Moves op run.status later.status := by
  have kept := step_kept env backend s op filed
  -- All writes of a call other than `acquire_lease` have one target.
  have one : ∀ target, (∀ label other, May s op label other → Label.target label = target) →
      ∃ later, (step env backend s op).find .runs id = some later ∧ Moves op run.status later.status := by
    intro target aims
    obtain ⟨later,foundLater,moved⟩ := RunsBy.moved kept.2 found
      (fun other _ ⟨label,may,change⟩ => aims label other may ▸ change_moved change)
    exact ⟨later,foundLater,moved.moves⟩
  cases op with
  | acquireLease choose now computerId leaseId =>
    obtain ⟨t,expired,claimed⟩ := @acquireLease_kept env backend leaseId _ _ (fun _ _ change => change)
      (fun _ _ change => change) choose now computerId s
    obtain ⟨filedT,swept⟩ := expired filed
    obtain ⟨middle,foundMiddle,first⟩ := RunsBy.moved swept found (fun _ _ change => change_moved change)
    obtain ⟨later,foundLater,second⟩ := RunsBy.moved (claimed filedT).2 foundMiddle (fun _ _ change => change_moved change)
    refine ⟨later,foundLater,?_⟩
    rcases first with same | ⟨lapsed,allowed⟩
    · exact same ▸ second.moves
    · rcases second with same | ⟨ready,_⟩
      · rw [same]; exact .moves _ allowed
      · rw [Option.some.inj ready]; exact .reclaims (Option.some.inj lapsed ▸ allowed)
  | claimRun | expireLeases | syncSession | reassignQueuedRun =>
    exact one _ (fun _ _ may => congrArg Label.target may)
  | acceptEvent | recoverRun | setRunStatus => exact one _ (fun _ _ may => congrArg Label.target may.1)
  | claimCommands | acknowledgeCommand | queueCommand => exact one none (fun _ _ never => never.elim)

theorem Moves.ended {op : Op} {status next : RunStatus} (moves : Moves op status next)
    (over_ : status = .completed ∨ status = .cancelled) : next = status := by
  cases moves with
  | stays => rfl
  | moves _ allowed | reclaims allowed => rcases over_ with rfl | rfl <;> cases allowed

/-- Over any calls a stored run stays stored, and each call moves its status by one step of the transition table at
    most, `acquire_lease` by the two of a lapse and a claim; a completed or cancelled run keeps its status. -/
theorem runs_follow_the_table {s : Docs} (filed : RunsFiled s) (ops : List Op) :
    (∀ op id run, (reach (step env backend) s ops).find .runs id = some run →
      ∃ later, (reach (step env backend) s (ops ++ [op])).find .runs id = some later ∧
        Moves op run.status later.status) ∧
    ∀ id run, s.find .runs id = some run → ∃ later, (reach (step env backend) s ops).find .runs id = some later ∧
      (run.status = .completed ∨ run.status = .cancelled → later.status = run.status) := by
  constructor
  · intro op id run found
    rw [reach_append]
    exact step_moves env backend (reach_filed env backend filed ops) found op
  · intro id run found
    induction ops generalizing s run with
    | nil => exact ⟨run,found,fun _ => rfl⟩
    | cons op rest ih =>
      obtain ⟨middle,foundMiddle,first⟩ := step_moves env backend filed found op
      obtain ⟨later,foundLater,kept⟩ := ih (step_kept env backend s op filed).1 middle foundMiddle
      refine ⟨later,foundLater,fun ended => ?_⟩
      have same := first.ended ended
      rw [kept (same ▸ ended),same]

end

theorem lapse_follows_the_table :
    ∃ later, (reach (step plainEnv .files) freshStore lapse).find .runs "run" = some later ∧
      Moves (.expireLeases (seconds 31)) .preparing later.status := by
  have leased : ((reach (step plainEnv .files) freshStore (lapse.take 1)).find .runs "run").map TaskRun.status =
      some .preparing := by decide
  obtain ⟨run,found,status⟩ := Option.map_eq_some_iff.mp leased
  rw [← status]
  exact (runs_follow_the_table plainEnv .files freshStore_filed _).1 (.expireLeases (seconds 31)) "run" run found

theorem queuedRun_unused : AllRuns Unused freshStore := by
  intro id run found
  unfold freshStore at found
  by_cases here : id = "run"
  · subst here
    cases found; exact ⟨rfl,rfl,rfl⟩
  · rw [find_put_id _ _ _ _ _ here] at found; cases found

def failing : List LifeOp := lapse.map .call ++ [.call (.setRunStatus (seconds 32) "run" .failed (some "stopped"))]

theorem failing_coherent :
    AllRuns LeaseCoherent (reach (lifeStep plainEnv .files) freshStore failing) ∧
      AllRuns FinishCoherent (reach (lifeStep plainEnv .files) freshStore failing) := by
  have start := lifecycle_coherent plainEnv .files freshStore_filed
    (fun id run found => (queuedRun_unused id run found).leaseCoherent)
    (fun id run found => (queuedRun_unused id run found).finishCoherent) failing
  refine ⟨start.1,start.2 ⟨id,id,?_,trivial⟩⟩
  rintro ⟨asked,_⟩
  cases asked

def revived : List LifeOp :=
  failing ++ [.call (.recoverRun (seconds 33) "run" none false),
    .call (.acquireLease oldestDocument (seconds 34) "laptop" firstLease)]

/-- The recovered run is active again and still carries the time it finished. -/
theorem recovered_run_keeps_finish_time :
    ((reach (lifeStep plainEnv .files) freshStore revived).find .runs "run").map
      (fun run => (run.status,run.finishedAt)) = some (.preparing,some (seconds 32)) := by decide

end Cowork.Lifecycle
