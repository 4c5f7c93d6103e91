import Cowork.Placement
import Cowork.StoreFrames
import Cowork.Transitions

/-!
What the operations of the service can do to a stored Task Run, said once. Each changes
a run by one of six changes (`Change`) and leaves every other run as it is; an invariant
of runs then needs one case for each change and none for the operations.
-/
namespace Cowork.RunChanges
open ControlModels RunState Effects ControlStore Tables ControlService StoreFrames

/-- What `secrets.token_urlsafe` draws for a lease. -/
structure Token where
  text : String
  nonempty : text ≠ ""
  short : text.length ≤ 128

/-- A callback of `accept_event` as the coordinator passes them: it projects the run into other records only. -/
structure Observer where
  effect : TaskRun → Prog Docs Err Unit
  runs : ∀ run s, (effect run s).2 .runs = s .runs

def Observer.apply (observer : Observer) (run : TaskRun) : Prog Docs Err TaskRun := do
  observer.effect run
  ret run

inductive Label where
  | claim (leaseId : Token)
  | event (event : RuntimeEvent)
  | expire
  | fence
  | reassign
  | set (status : RunStatus) (error : Option String)

inductive Change (env : Env) : Label → TaskRun → TaskRun → Prop
  | claim {now expires : Time} {leaseId : Token} {run after : TaskRun}
      (waiting : run.status = .queued ∨ run.status = .recovering)
      (ok : transitionRun now .preparing none (leased leaseId.text expires run) = .ok after) :
      Change env (.claim leaseId) run (touch now .runs after)
  | event {now : Time} {event : RuntimeEvent} {run after : TaskRun}
      (fence : requireFence now run event.computerId event.leaseId event.epoch = .ok ())
      (newer : run.lastEventSeq < event.seq) (ok : applyEvent env now event (renewed now run) = .ok after) :
      Change env (.event event) run (touch now .runs (recorded event after))
  | expire {now : Time} {mode : ResumeMode} {run after : TaskRun} (ok : expireLease now mode run = .ok after) :
      Change env .expire run (touch now .runs after)
  | fence {now : Time} {mode : ResumeMode} {target : String} {run after : TaskRun} (name : named 128 target = true)
      (ok : transitionRun now .recovering none { superseded mode run with computerId := target } = .ok after) :
      Change env .fence run (touch now .runs after)
  | reassign {now : Time} {target : String} {run : TaskRun} (name : named 128 target = true)
      (queued : run.status = .queued) : Change env .reassign run (touch now .runs { run with computerId := target })
  | set {now : Time} {status : RunStatus} {error : Option String} {run after : TaskRun}
      (ok : transitionRun now status error run = .ok after) : Change env (.set status error) run (touch now .runs after)

def eventTarget (event : RuntimeEvent) : Option RunStatus :=
  match event.kind with
  | .status =>
    match event.payload.get "status" with
    | some (.str text) => RunStatus.ofValue text
    | _ => none
  | .turnCompleted => some .ready
  | .error => some .failed
  | .checkpoint | .event | .approval | .workspace => none

variable {env : Env} {now : Time} {event : RuntimeEvent} {run after : TaskRun} {R : TaskRun → TaskRun → Prop}
  {s t : Docs} {id : String} {α : Type} {backend : Backend} {e : Err} {operation : TaskRun → Prog Docs Err TaskRun}

theorem applyEvent_ok (ok : applyEvent env now event run = .ok after) :
    (∃ checkpoint, after = { run with checkpoint }) ∨
      ∃ target error, eventTarget event = some target ∧ fits 4000 error = true ∧
        transitionRun now target error run = .ok after := by
  unfold applyEvent at ok
  cases kind : event.kind with
  | checkpoint =>
    rw [kind] at ok
    simp only at ok
    split at ok <;> cases ok <;> exact .inl ⟨_,rfl⟩
  | status =>
    have aims {text : String} (found : event.payload.get "status" = some (.str text)) :
        eventTarget event = RunStatus.ofValue text := by simp only [eventTarget,kind,found]
    rw [kind] at ok
    simp only at ok
    split at ok
    · rename_i text found
      split at ok
      · rename_i status known
        exact .inr ⟨status,none,(aims found).trans known,rfl,ok⟩
      · cases ok
    · cases ok; exact .inl ⟨run.checkpoint,rfl⟩
  | turnCompleted =>
    rw [kind] at ok
    exact .inr ⟨.ready,none,by rw [eventTarget,kind],rfl,ok⟩
  | error => grind [eventTarget,eventError,fits,length_cut]
  | event | approval | workspace =>
    rw [kind] at ok
    cases ok; exact .inl ⟨run.checkpoint,rfl⟩

theorem applyEvent_same (ok : applyEvent env now event run = .ok after) : SameExecution run after := by
  rcases applyEvent_ok ok with ⟨checkpoint,rfl⟩ | ⟨target,error,_,_,moved⟩
  · exact ⟨rfl,rfl,rfl,rfl,rfl,rfl⟩
  · exact transitionRun_same moved

theorem expireLease_ok {mode : ResumeMode} (ok : expireLease now mode run = .ok after) :
    after = run ∨ active run.status = true ∧
      transitionRun now .recovering (some "The computer stopped responding. The task can be resumed safely.")
        (superseded mode run) = .ok after := by grind only [expireLease]

theorem expireLease_id {mode : ResumeMode} (ok : expireLease now mode run = .ok after) : after.id = run.id := by
  rcases expireLease_ok ok with rfl | ⟨_,moved⟩
  · rfl
  · exact (transitionRun_same moved).id

theorem change_epoch {label : Label} (change : Change env label run after) : run.epoch ≤ after.epoch := by
  cases change with
  | claim _ ok | set ok => exact (transitionRun_same ok).epoch.ge
  | event _ _ ok => exact (applyEvent_same ok).epoch.ge
  | expire ok =>
    rcases expireLease_ok ok with rfl | ⟨_,moved⟩
    · exact Nat.le_refl _
    · exact (Nat.le_succ _).trans (transitionRun_same moved).epoch.ge
  | fence _ ok => exact (Nat.le_succ _).trans (transitionRun_same ok).epoch.ge
  | reassign _ _ => exact Nat.le_refl _

theorem requireFence_ok {computerId leaseId : String} {epoch : Nat}
    (ok : requireFence now run computerId leaseId epoch = .ok ()) :
    run.computerId = computerId ∧ run.epoch = epoch ∧ run.leaseId ≠ none ∧ run.leaseExpiresAt ≠ none := by
  grind only [requireFence,requireEventOwner,requireLease]

theorem acceptOperation_ok {σ : Type} {apply : Option (TaskRun → Prog σ Err TaskRun)} {s t : σ}
    (ok : acceptOperation env now event apply run s = (.ok after,t)) :
    redelivered event run ∧ requireEventOwner run event.computerId event.epoch = .ok () ∧ after = run ∧ t = s ∨
      ¬redelivered event run ∧ requireFence now run event.computerId event.leaseId event.epoch = .ok () ∧
      run.lastEventSeq < event.seq ∧ ∃ applied observed, applyEvent env now event (renewed now run) = .ok applied ∧
        observe apply applied s = (.ok observed,t) ∧ after = recorded event observed := by
  unfold acceptOperation at ok
  split at ok
  · rename_i again
    obtain ⟨_,_,checking,returned⟩ := andThen_returns ok
    obtain ⟨owner,rfl⟩ := attempt_returns checking
    cases returned; exact .inl ⟨again,owner,rfl,rfl⟩
  · rename_i fresh
    obtain ⟨_,_,checking,more⟩ := andThen_returns ok
    obtain ⟨fenced,rfl⟩ := attempt_returns checking
    split at more
    · cases more
    · obtain ⟨applied,_,changing,rest⟩ := andThen_returns more
      obtain ⟨applying,rfl⟩ := attempt_returns changing
      obtain ⟨observed,_,observing,returned⟩ := andThen_returns rest
      cases returned; exact .inr ⟨fresh,fenced,by omega,applied,observed,applying,observing,rfl⟩

theorem quiet_acceptOperation {c : Collection} {apply : Option (TaskRun → Prog Docs Err TaskRun)}
    (observes : ∀ run, Quiet c (observe apply run)) (run : TaskRun) :
    Quiet c (acceptOperation env now event apply run) := by
  unfold acceptOperation
  split
  · exact quiet_andThen (quiet_attempt _) (fun _ => quiet_ret run)
  · refine quiet_andThen (quiet_attempt _) (fun _ => ?_)
    split
    · exact quiet_raise _
    · exact quiet_andThen (quiet_attempt _) (fun applied => quiet_andThen (observes applied) (fun _ => quiet_ret _))

theorem quiet_observer {c : Collection} {apply : Option Observer}
    (quiet : ∀ observer ∈ apply, ∀ run, Quiet c (observer.effect run)) (run : TaskRun) :
    Quiet c (observe (apply.map Observer.apply) run) := by
  cases apply with
  | none => exact quiet_ret run
  | some observer => exact quiet_andThen (quiet observer rfl run) (fun _ => quiet_ret run)

def RunsFiled (s : Docs) : Prop := ∀ id run, s.find .runs id = some run → run.id = id

/-- From one state to the next every stored run went through changes of `R`; none appeared or was lost. -/
def RunsBy (R : TaskRun → TaskRun → Prop) (s t : Docs) : Prop :=
  ∀ id, s.find .runs id = none ∧ t.find .runs id = none ∨
    ∃ run after, s.find .runs id = some run ∧ t.find .runs id = some after ∧ Relation.ReflTransGen R run after

/-- Changes of `R`, on runs that stand under their own ids and go on doing so. -/
def RunsKept (R : TaskRun → TaskRun → Prop) (s t : Docs) : Prop := RunsFiled s → RunsFiled t ∧ RunsBy R s t

theorem runsBy_refl (R : TaskRun → TaskRun → Prop) (s : Docs) : RunsBy R s s := by
  intro id
  cases found : s.find .runs id with
  | none => exact .inl ⟨rfl,rfl⟩
  | some run => exact .inr ⟨run,run,rfl,rfl,.refl⟩

theorem kept_of_same (same : Same .runs s t) : RunsKept R s t := by
  intro filed
  refine ⟨fun id run found => filed id run (same.find id ▸ found),?_⟩
  intro id
  rw [same.find id]
  exact runsBy_refl R s id

theorem runsKept_refl (R : TaskRun → TaskRun → Prop) (s : Docs) : RunsKept R s s := kept_of_same (same_refl s)

theorem runsKept_trans (R : TaskRun → TaskRun → Prop) (a b c : Docs) (first : RunsKept R a b)
    (rest : RunsKept R b c) : RunsKept R a c := by
  intro filed
  obtain ⟨filedB,toB⟩ := first filed
  obtain ⟨filedC,toC⟩ := rest filedB
  refine ⟨filedC,?_⟩
  intro id
  rcases toB id with ⟨missing,missingB⟩ | ⟨run,middle,found,foundB,changed⟩
  · grind only [RunsBy]
  · rcases toC id with ⟨missingB,_⟩ | ⟨again,after,foundB',foundC,changed'⟩
    · rw [foundB] at missingB; cases missingB
    · rw [foundB] at foundB'
      cases foundB'
      exact .inr ⟨run,after,found,foundC,changed.trans changed'⟩

theorem runsKept_put (same : Same .runs s t) (found : s.find .runs id = some run) (own : after.id = run.id)
    (changed : R run after) : RunsKept R s (t.put .runs id after) := by
  intro filed
  constructor
  · grind only [find_put_self,find_put_id,same.find,RunsFiled]
  · intro other
    by_cases here : other = id
    · subst here
      exact .inr ⟨run,after,found,find_put_self ..,.single changed⟩
    · rw [find_put_id _ _ _ _ _ here,same.find]
      exact runsBy_refl R s other

theorem RunsBy.keeps {P : TaskRun → Prop} (changes : RunsBy R s t) (keep : ∀ run after, R run after → P run → P after)
    (found : s.find .runs id = some run) (holds : P run) : ∃ after, t.find .runs id = some after ∧ P after := by
  rcases changes id with ⟨missing,_⟩ | ⟨before,after,foundS,foundT,changed⟩
  · rw [found] at missing; cases missing
  · rw [found] at foundS
    cases foundS
    have kept : P after := by
      clear foundT
      induction changed with
      | refl => exact holds
      | tail _ last ih => exact keep _ _ last ih
    exact ⟨after,foundT,kept⟩

theorem RunsBy.origin (changes : RunsBy R s t) (found : t.find .runs id = some after) :
    ∃ run, s.find .runs id = some run ∧ Relation.ReflTransGen R run after := by grind only [RunsBy]

theorem updateRunWith_cases (backend : Backend) (now : Time) (id : String)
    {operation : TaskRun → Prog Docs Err (TaskRun × α)} (quiet : ∀ run, Quiet .runs (operation run))
    (own : ∀ run s after kept t, operation run s = (.ok (after,kept),t) → after.id = run.id)
    (filed : RunsFiled s) :
    Same .runs s (updateRunWith backend now id operation s).2 ∨
      ∃ run after kept t, s.find .runs id = some run ∧ run.valid = true ∧ operation run s = (.ok (after,kept),t) ∧
        after ≠ run ∧ Same .runs s t ∧ (updateRunWith backend now id operation s) =
          (.ok (touch now .runs after,kept),t.put .runs id (touch now .runs after)) := by
  rcases loading : get backend .runs id s with ⟨loaded,s'⟩
  cases loaded with
  | error e =>
    have rest : s' = s := by simpa [loading] using get_state backend .runs id s
    subst rest
    left
    cases backend <;>
      simp [updateRunWith,transaction,atomically,andThen_error loading,same_refl]
  | ok run =>
    obtain ⟨rfl,found,checked⟩ := get_ok loading
    rcases operating : operation run s' with ⟨made,t⟩
    have silent : Same .runs s' t := by simpa [Keeps,operating] using quiet run s'
    cases made with
    | error e =>
      left
      cases backend <;>
        simp [updateRunWith,transaction,atomically,andThen_ok loading,andThen_error operating,same_refl,silent]
    | ok pair =>
      obtain ⟨after,kept⟩ := pair
      by_cases unchanged : after = run
      · left
        cases backend <;>
          simp [updateRunWith,transaction,atomically,andThen_ok loading,andThen_ok operating,unchanged,silent]
      · right
        refine ⟨run,after,kept,t,found,checked,operating,unchanged,silent,?_⟩
        have name : after.id = id := (own run s' after kept t operating).trans (filed id run found)
        have loadable : wellFormedId id = true := by
          rw [← filed id run found]; exact wellFormed_of_valid checked
        cases backend with
        | files =>
          have saving : save .files now .runs after t = (.ok (touch now .runs after),t.put .runs id (touch now .runs after)) := by
            simp [save,docId,name,loadable]
          simp [updateRunWith,transaction,andThen_ok loading,andThen_ok operating,unchanged,andThen_ok saving]
        | rows => simp [updateRunWith,transaction,atomically,andThen,loading,operating,unchanged]

theorem get_stored (backend : Backend) (filed : RunsFiled s)
    (found : s.find .runs id = some run) (loadable : run.valid = true) : get backend .runs id s = (.ok run,s) := by
  grind only [ControlStore.get,valid,RunsFiled,TaskRun.valid]

section
variable (loading : get backend .runs id s = (.ok run,s))
include loading

theorem updateRunWith_raises {operation : TaskRun → Prog Docs Err (TaskRun × α)}
    (raised : operation run s = (.error e,s)) :
    updateRunWith backend now id operation s = (.error e,s) := by
  cases backend <;> simp [updateRunWith,transaction,atomically,andThen_ok loading,andThen_error raised]

theorem updateRun_raises (raised : operation run s = (.error e,s)) :
    updateRun backend now id operation s = (.error e,s) :=
  andThen_error (updateRunWith_raises loading (andThen_error raised))

theorem updateRun_failed (raised : operation run s = (.error e,t)) (silent : Same .runs s t) :
    (updateRun backend now id operation s).1 = .error e ∧ Same .runs s (updateRun backend now id operation s).2 := by
  cases backend <;> simp [updateRun,updateRunWith,transaction,atomically,andThen,loading,raised,silent,same_refl]

theorem updateRun_unchanged (made : operation run s = (.ok run,t)) :
    updateRun backend now id operation s = (.ok run,t) := by
  cases backend <;> simp [updateRun,updateRunWith,transaction,atomically,andThen,loading,made]

end

theorem updateRun_writes (backend : Backend) (now : Time) (filed : RunsFiled s) (found : s.find .runs id = some run)
    (loadable : run.valid = true) (made : operation run s = (.ok after,t)) (own : after.id = run.id) (differs : after ≠ run) :
    updateRun backend now id operation s = (.ok (touch now .runs after),t.put .runs id (touch now .runs after)) := by
  have loading := get_stored backend filed found loadable
  have good : wellFormedId id = true := by
    rw [← filed id run found]; exact wellFormed_of_valid (c := .runs) loadable
  have name : after.id = id := own.trans (filed id run found)
  cases backend <;>
    simp [updateRun,updateRunWith,transaction,atomically,andThen,loading,made,differs,save,docId,name,good]

theorem updateRun_attempt_writes (backend : Backend) (now : Time) {f : TaskRun → Except Err TaskRun}
    (filed : RunsFiled s) (found : s.find .runs id = some run) (loadable : run.valid = true)
    (made : f run = .ok after) (own : after.id = run.id) (differs : after ≠ run) :
    (updateRun backend now id (fun run => attempt (f run)) s).2 = s.put .runs id (touch now .runs after) := by
  rw [updateRun_writes backend now filed found loadable (by rw [attempt_run,made]) own differs]

theorem updateRunWith_kept (backend : Backend) (now : Time) (id : String)
    {operation : TaskRun → Prog Docs Err (TaskRun × α)} (quiet : ∀ run, Quiet .runs (operation run))
    (own : ∀ run s after kept t, operation run s = (.ok (after,kept),t) → after.id = run.id) (s : Docs)
    (changed : ∀ run after kept t, s.find .runs id = some run → run.valid = true →
      operation run s = (.ok (after,kept),t) → after ≠ run → R run (touch now .runs after)) :
    Keeps (RunsKept R) (updateRunWith backend now id operation) s := by
  intro filed
  rcases updateRunWith_cases backend now id quiet own filed with
    same | ⟨run,after,kept,t,found,checked,made,differs,same,wrote⟩
  · exact kept_of_same same filed
  · rw [wrote]
    exact runsKept_put same found (own run s after kept t made) (changed run after kept t found checked made differs) filed

theorem updateRun_kept (backend : Backend) (now : Time) (id : String) (quiet : ∀ run, Quiet .runs (operation run))
    (own : ∀ run s after t, operation run s = (.ok after,t) → after.id = run.id) (s : Docs)
    (changed : ∀ run after t, s.find .runs id = some run → run.valid = true →
      operation run s = (.ok after,t) → after ≠ run → R run (touch now .runs after)) :
    Keeps (RunsKept R) (updateRun backend now id operation) s := by
  have inner : ∀ run s after (kept : Unit) t,
      (andThen (operation run) (fun after => ret (after,()))) s = (.ok (after,kept),t) → operation run s = (.ok after,t) := by
    intro run s after kept t made
    obtain ⟨result,t',ran,returned⟩ := andThen_returns made
    cases returned; exact ran
  refine keeps_andThen (runsKept_trans R) (updateRunWith_kept backend now id ?_ ?_ s ?_) ?_
  · exact fun run => quiet_andThen (quiet run) (fun after => quiet_ret (after,()))
  · exact fun run s after kept t made => own run s after t (inner run s after kept t made)
  · exact fun run after kept t found checked made => changed run after t found checked (inner run s after kept t made)
  · exact fun _ s' _ => runsKept_refl R s'

theorem updateRun_attempt_kept (backend : Backend) (now : Time) (id : String)
    {f : TaskRun → Except Err TaskRun} (own : ∀ run after, f run = .ok after → after.id = run.id) (s : Docs)
    (changed : ∀ run after, s.find .runs id = some run → f run = .ok after → after ≠ run → R run (touch now .runs after)) :
    Keeps (RunsKept R) (updateRun backend now id (fun run => attempt (f run))) s := by
  grind only [updateRun_kept,quiet_attempt,attempt_returns]

end Cowork.RunChanges
