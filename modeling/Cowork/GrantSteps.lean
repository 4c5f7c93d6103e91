import Cowork.ConnectorDelegation
import Cowork.ServiceSteps

/-!
What the calls on connector grants do to the store, one operation at a time. What
a store operation can do to the grants is said once (`Moved`), and so is how a
run and a grant may age beside it (`Ages`).
-/
namespace Cowork.GrantSteps
open ControlModels RunState Effects ControlStore Tables ControlService Placement StoreFrames RunChanges
open ServiceSteps ConnectorDelegation

/-- What `_validate` has seen to when it returns. -/
structure Passes (now : Time) (grant : ConnectorGrant) (run : TaskRun) (request : Request) : Prop where
  unrevoked : grant.revokedAt = none
  unexpired : now < grant.expiresAt
  epoch : grant.epoch = run.epoch
  going : run.status.terminal = false
  computer : grant.computerId = run.computerId
  caller : request.computerId = none ∨ request.computerId = some grant.computerId
  action : request.action ∈ grant.actions
  scope : validateConstraints grant request.action request.constraints = .ok ()
  left : grant.useCount < grant.maxUses

theorem validate_passes {digest : String → String} {now : Time} {grant : ConnectorGrant} {run : TaskRun}
    {request : Request} (ok : validate digest now grant run request = .ok ()) : Passes now grant run request := by
  unfold validate at ok
  constructor <;> grind only

variable {backend : Backend} {s t : Docs}

theorem authorize_counts {digest : String → String} {now : Time} {request : Request} {after : ConnectorGrant}
    {run : TaskRun} (filed : ∀ id grant, s.find .grants id = some grant → grant.id = id)
    (ran : updateGrantWith backend request.grantId (authorizeGrant digest now request) s = (.ok (after,run),t)) :
    ∃ grant, s.find .grants request.grantId = some grant ∧ s.find .runs grant.runId = some run ∧ grant.valid = true ∧
    run.valid = true ∧ Passes now grant run request ∧ after = used now grant ∧ t = s.put .grants request.grantId after := by
  obtain ⟨grant,s',loading,loaded⟩ := andThen_returns ran
  obtain ⟨rfl,found,checked⟩ := get_ok loading
  obtain ⟨seen,s'',loadingRun,both⟩ := andThen_returns loaded
  obtain ⟨rfl,foundRun,checkedRun⟩ := get_ok loadingRun
  obtain ⟨⟨made,kept⟩,u,operating,writing⟩ := andThen_returns both
  obtain ⟨operated,rfl⟩ := attempt_returns operating
  have own := filed _ _ found
  unfold authorizeGrant at operated
  split at operated
  · cases operated
  rename_i passes
  cases operated
  refine ⟨grant,found,?_⟩
  cases backend with
  | files =>
    have good : wellFormedId grant.id = true := wellFormed_of_valid checked
    have saving : save .files 0 .grants (used now grant) u =
        (.ok (used now grant),u.put .grants request.grantId (used now grant)) := by
      rw [← own]; exact @save_stores .grants .files 0 (used now grant) good u
    simp only [bind_run,andThen_ok saving] at writing
    cases writing; exact ⟨foundRun,checked,checkedRun,validate_passes passes,rfl,rfl⟩
  | rows => cases writing; exact ⟨foundRun,checked,checkedRun,validate_passes passes,rfl,rfl⟩

theorem updateGrantWith_raises {α : Type} {id : String} {operation : ConnectorGrant → TaskRun →
    Except Err (ConnectorGrant × α)} {e : Err} (ran : updateGrantWith backend id operation s = (.error e,t)) : t = s := by
  have still := get_state backend .grants id
  have stillRun := fun runId => get_state backend .runs runId
  cases backend <;> simp only [updateGrantWith,bind_run,andThen,attempt_run,save,ret,write] at ran <;> grind -funext -ext only

def Recordable (grant : ConnectorGrant) : Prop :=
  ∀ action ∈ grant.actions, (grant.provider.value ++ ":" ++ action).length ≤ 1000

/-- An id for an audit record that `uuid4` has not drawn before. -/
structure FreshId (tick : Tick) (s : Docs) : Prop where
  letters : wellFormedId tick.auditId = true
  length : named 160 tick.auditId = true
  unused : s.find .audit tick.auditId = none

instance (tick : Tick) (s : Docs) : Decidable (FreshId tick s) :=
  decidable_of_iff (wellFormedId tick.auditId = true ∧ named 160 tick.auditId = true ∧ s.find .audit tick.auditId = none)
    ⟨fun ok => ⟨ok.1,ok.2.1,ok.2.2⟩,fun ok => ⟨ok.letters,ok.length,ok.unused⟩⟩

inductive Moved (tick : Tick) (s t : Docs) : Thread → Thread → Prop
  | saves {grant : ConnectorGrant} {token : String} {actions : List String} (wrote : t = s.put .grants grant.id grant) :
      Moved tick s t (.granting grant token actions) (.granted grant token actions)
  | issues {grant : ConnectorGrant} {token : String} {actions : List String} (same : Same .grants s t)
      (recorded : (grantEvent tick grant actions).valid = true) :
      Moved tick s t (.granted grant token actions) (.ended (.issued grant token))
  | counts {request : Request} {snapshot grant : ConnectorGrant} {run : TaskRun}
      (found : s.find .grants request.grantId = some grant) (foundRun : s.find .runs grant.runId = some run)
      (checked : grant.valid = true) (checkedRun : run.valid = true) (passes : Passes tick.now grant run request)
      (wrote : t = s.put .grants request.grantId (used tick.now grant)) :
      Moved tick s t (.authorizing request snapshot) (.allowing request (used tick.now grant) run)
  | denies {request : Request} {snapshot : ConnectorGrant} {text : String} (same : Same .grants s t) :
      Moved tick s t (.authorizing request snapshot) (.denying request snapshot text)
  | authorizes {request : Request} {grant : ConnectorGrant} {run : TaskRun} (same : Same .grants s t) :
      Moved tick s t (.allowing request grant run) (.ended (.authorized grant))
  | skips {runId : String} {now : Time} {grant : ConnectorGrant} {rest : List ConnectorGrant} (same : Same .grants s t)
      (already : grant.revokedAt ≠ none) : Moved tick s t (.revoking runId now (grant :: rest)) (.revoking runId now rest)
  | revokes {runId : String} {now : Time} {grant : ConnectorGrant} {rest : List ConnectorGrant}
      (open_ : grant.revokedAt = none) (wrote : t = s.put .grants grant.id (withdrawn now grant)) :
      Moved tick s t (.revoking runId now (grant :: rest)) (.revoked runId now (withdrawn now grant) rest)
  | records {runId : String} {now : Time} {grant : ConnectorGrant} {rest : List ConnectorGrant} (same : Same .grants s t) :
      Moved tick s t (.revoked runId now grant rest) (.revoking runId now rest)
  | returns {runId : String} {now : Time} (same : Same .grants s t) :
      Moved tick s t (.revoking runId now []) (.ended (.revoked runId))
  | raises {thread : Thread} {e : Err} (same : Same .grants s t) (going : ∀ outcome, thread ≠ .ended outcome)
      (unrecorded : ∀ request grant run, thread = .allowing request grant run →
        ¬((allowEvent tick request grant run).valid = true ∧ s.find .audit tick.auditId = none)) :
      Moved tick s t thread (.ended (.raised e))
  | rests {outcome : Outcome} (same : t = s) : Moved tick s t (.ended outcome) (.ended outcome)

theorem record_returns (backend : Backend) {event : SecurityAuditEvent} (checked : event.valid = true)
    (unused : s.find .audit event.id = none) : recordSecurityEvent backend event s =
    (.ok (),s.put .audit event.id event) := by
  have building : construct .audit event s = (.ok event,s) := by simp [construct,valid,checked]
  have good : wellFormedId event.id = true := wellFormed_of_valid (c := .audit) checked
  have saving : saveAuditEvent backend event s = (.ok event,s.put .audit event.id event) := by
    cases backend with
    | files =>
      have absent : get .files .audit event.id s = (.error (.keyError (modelName .audit ++ " not found")),s) := by
        simp [ControlStore.get,good,unused]
      simp only [saveAuditEvent,absent]
      exact save_stores (c := .audit) .files 0 good s
    | rows =>
      simp only [saveAuditEvent,unused]
      exact save_stores (c := .audit) .rows 0 good s
  exact (andThen_ok building).trans (andThen_ok saving)

theorem record_checked {event : SecurityAuditEvent} (ran : recordSecurityEvent backend event s = (.ok (),t)) :
    event.valid = true := by
  obtain ⟨_,_,building,_⟩ := andThen_returns ran
  unfold construct at building
  split at building
  · rename_i checked
    exact checked
  · cases building

section
variable (digest : String → String) (backend : Backend)

theorem proceed_record (event : SecurityAuditEvent) (next : Unit → Thread) (s : Docs) :
    (∃ t, Same .grants s t ∧ event.valid = true ∧ proceed (recordSecurityEvent backend event) next s = (t,next ())) ∨
      ∃ e t, Same .grants s t ∧ ¬(event.valid = true ∧ s.find .audit event.id = none) ∧
        proceed (recordSecurityEvent backend event) next s = (t,.ended (.raised e)) := by
  have quiet := quiet_recordSecurityEvent (c := .grants) backend event (by decide) s
  grind only [Keeps,record_checked,proceed,record_returns]

theorem proceed_save (grant : ConnectorGrant) (next : ConnectorGrant → Thread) (s : Docs) :
    proceed (save backend 0 .grants grant) next s = (s.put .grants grant.id grant,next grant) ∨
      ∃ e, proceed (save backend 0 .grants grant) next s = (s,.ended (.raised e)) := by
  grind only [proceed,save,docId,touch]

theorem move_moved (tick : Tick) {s : Docs} (filed : ∀ id grant, s.find .grants id = some grant → grant.id = id)
    (thread : Thread) : Moved tick s (move digest backend tick s thread).1 thread (move digest backend tick s thread).2 := by
  cases thread with
  | granting grant token actions =>
    rcases proceed_save backend grant (fun saved => .granted saved token actions) s with saved | ⟨e,raised⟩
    · simp only [move,saved]
      exact .saves rfl
    · simp only [move,raised]
      exact .raises rfl (by simp) (by simp)
  | granted grant token actions =>
    rcases proceed_record backend (grantEvent tick grant actions) (fun _ => .ended (.issued grant token)) s with
      ⟨t,same,checked,ran⟩ | ⟨e,t,same,_,ran⟩
    · simp only [move,ran]
      exact .issues same checked
    · simp only [move,ran]
      exact .raises same (by simp) (by simp)
  | authorizing request snapshot =>
    rcases ran : updateGrantWith backend request.grantId (authorizeGrant digest tick.now request) s with ⟨r,t⟩
    cases r with
    | ok pair =>
      obtain ⟨after,run⟩ := pair
      obtain ⟨grant,found,foundRun,checked,checkedRun,passes,rfl,wrote⟩ := authorize_counts filed ran
      simp only [move,ran]
      exact .counts found foundRun checked checkedRun passes wrote
    | error e =>
      have same := updateGrantWith_raises ran
      subst same
      cases e
      case runtimeAuthenticationError text =>
        simp only [move,ran]
        exact .denies rfl
      all_goals
        simp only [move,ran]
        exact .raises rfl (by simp) (by simp)
  | allowing request grant run =>
    rcases proceed_record backend (allowEvent tick request grant run) (fun _ => .ended (.authorized grant)) s with
      ⟨t,same,_,ran⟩ | ⟨e,t,same,unrecorded,ran⟩
    · simp only [move,ran]
      exact .authorizes same
    · simp only [move,ran]
      refine .raises same (by simp) (fun _ _ _ this => ?_)
      cases this; exact unrecorded
  | denying request snapshot text =>
    rcases proceed_record backend (denyEvent tick request snapshot text)
      (fun _ => .ended (.raised (.runtimeAuthenticationError text))) s with ⟨t,same,_,ran⟩ | ⟨e,t,same,_,ran⟩
    all_goals
      simp only [move,ran]
      exact .raises same (by simp) (by simp)
  | revoking runId now pending =>
    cases pending with
    | nil => exact .returns rfl
    | cons grant rest =>
      by_cases already : grant.revokedAt = none
      · rcases proceed_save backend (withdrawn now grant) (fun saved => .revoked runId now saved rest) s with
          saved | ⟨e,raised⟩
        · rw [move,if_neg (not_not.mpr already),saved]
          exact .revokes already rfl
        · rw [move,if_neg (not_not.mpr already),raised]
          exact .raises rfl (by simp) (by simp)
      · rw [move,if_pos already]; exact .skips rfl already
  | revoked runId now grant rest =>
    rcases proceed_record backend (revokeEvent tick runId grant) (fun _ => .revoking runId now rest) s with
      ⟨t,same,_,ran⟩ | ⟨e,t,same,_,ran⟩
    · simp only [move,ran]
      exact .records same
    · simp only [move,ran]
      exact .raises same (by simp) (by simp)
  | ended outcome => exact .rests rfl

theorem proceed_quiet {α : Type} {c : Collection} {p : Prog Docs Err α} (quiet : Quiet c p) (next : α → Thread) (s : Docs) :
    Same c s (proceed p next s).1 := by
  have same := quiet s
  unfold Keeps at same
  rcases ran : p s with ⟨r,t⟩
  cases r <;> simpa only [proceed,ran] using same

theorem move_runs (tick : Tick) (s : Docs) (thread : Thread) : Same .runs s (move digest backend tick s thread).1 := by
  have saves : ∀ grant : ConnectorGrant, Quiet .runs (save backend 0 .grants grant) :=
    fun grant => quiet_save (d := .grants) backend 0 grant (by decide)
  have records : ∀ event, Quiet .runs (recordSecurityEvent backend event) :=
    fun event => quiet_recordSecurityEvent backend event (by decide)
  cases thread with
  | granting grant token actions => exact proceed_quiet (saves grant) _ s
  | granted _ _ _ | allowing _ _ _ | denying _ _ _ | revoked _ _ _ _ => exact proceed_quiet (records _) _ s
  | authorizing request snapshot =>
    have same := quiet_updateGrantWith (c := .runs) backend request.grantId (authorizeGrant digest tick.now request)
      (by decide) s
    unfold Keeps at same
    rw [move]
    split <;> (rename_i ran; rw [ran] at same; exact same)
  | revoking runId now pending =>
    cases pending with
    | nil => rfl
    | cons grant rest =>
      rw [move]
      split
      · rfl
      · exact proceed_quiet (saves _) _ s
  | ended outcome => rfl

end

def Later (run after : TaskRun) : Prop :=
  run.epoch < after.epoch ∨ after.epoch = run.epoch ∧ after.computerId = run.computerId ∧
    (run.status.terminal = true → after.status.terminal = true)

theorem later_refl (run : TaskRun) : Later run run := .inr ⟨rfl,rfl,id⟩

theorem later_trans {a b c : TaskRun} (first : Later a b) (rest : Later b c) : Later a c := by grind only [Later]

theorem Later.epoch {run after : TaskRun} (later : Later run after) : run.epoch ≤ after.epoch := by
  rcases later with up | ⟨same,_⟩ <;> omega

def SameTerms (a b : ConnectorGrant) : Prop :=
  b = { a with useCount := b.useCount,lastUsedAt := b.lastUsedAt,revokedAt := b.revokedAt }

theorem sameTerms_refl (a : ConnectorGrant) : SameTerms a a := rfl
theorem sameTerms_trans {a b c : ConnectorGrant} (first : SameTerms a b) (rest : SameTerms b c) : SameTerms a c := by
  unfold SameTerms at *
  rw [rest,first]

theorem SameTerms.recordable {a b : ConnectorGrant} (same : SameTerms a b) : Recordable a ↔ Recordable b := by
  rw [same]
  rfl

def Aged (grant after : ConnectorGrant) : Prop :=
  SameTerms grant after ∧ (grant.revokedAt ≠ none → after.revokedAt ≠ none)

structure Ages (s t : Docs) : Prop where
  runs : ∀ id run, s.find .runs id = some run → ∃ after, t.find .runs id = some after ∧ Later run after
  grants : ∀ id grant, s.find .grants id = some grant → ∃ after, t.find .grants id = some after ∧ Aged grant after

theorem ages_refl (s : Docs) : Ages s s :=
  ⟨fun _ run found => ⟨run,found,later_refl run⟩,fun _ grant found => ⟨grant,found,sameTerms_refl grant,id⟩⟩

theorem ages_trans (a b c : Docs) (first : Ages a b) (rest : Ages b c) : Ages a c := by
  constructor
  · grind only [first.runs,rest.runs,later_trans]
  grind only [sameTerms_trans,Aged,cases Ages]

theorem ages_put {s : Docs} {id : String} {after : ConnectorGrant}
    (aged : ∀ grant, s.find .grants id = some grant → Aged grant after) : Ages s (s.put .grants id after) := by
  have runs : ∀ other, (s.put .grants id after).find .runs other = s.find .runs other :=
    fun other => find_put_collection _ _ _ _ (by decide)
  refine ⟨fun other run foundRun => ⟨run,(runs other).trans foundRun,later_refl run⟩,fun other old foundOld => ?_⟩
  grind only [find_put_self,find_put_id,sameTerms_refl,Aged]

theorem ages_new {s : Docs} {id : String} (unused : s.find .grants id = none) (grant : ConnectorGrant) :
    Ages s (s.put .grants id grant) := ages_put (by simp [unused])

theorem ages_same {s t : Docs} (runs : Same .runs s t) (grants : Same .grants s t) : Ages s t :=
  ⟨fun id run found => ⟨run,(runs.find id).trans found,later_refl run⟩,
    fun id grant found => ⟨grant,(grants.find id).trans found,sameTerms_refl grant,fun revoked => revoked⟩⟩

/-- The operations that move a run on beside the grants, but put no ended run back to `recovering` in its epoch. -/
def Admitted (s : Docs) : Op → Prop
  | .expireLeases _ => True
  | .recoverRun _ _ _ _ => True
  | .setRunStatus _ runId status _ =>
    status = .recovering → ∀ run, s.find .runs runId = some run → run.status.terminal = false
  | .syncSession _ _ => True
  | .acceptEvent _ event apply =>
    (eventTarget event = some .recovering → ∀ run, s.find .runs event.runId = some run → run.status.terminal = false) ∧
    ∀ observer ∈ apply, ∀ run, Quiet .grants (observer.effect run)
  | _ => False

def Onward (run : TaskRun) : Label → Prop
  | .expire => True
  | .fence => True
  | .set status _ => status = .recovering → run.status.terminal = false
  | .event event => eventTarget event = some .recovering → run.status.terminal = false
  | .claim _ => False
  | .reassign => False

theorem transitionRun_later {now : Time} {target : RunStatus} {error : Option String} {run after : TaskRun}
    (ok : transitionRun now target error run = .ok after)
    (onward : target = .recovering → run.status.terminal = false) : Later run after := by
  have same := transitionRun_same ok
  grind only [leaves_terminal,Later,cases SameExecution,transitionRun]

theorem change_later {env : Env} {label : Label} {run after : TaskRun} (change : Change env label run after)
    (onward : Onward run label) : Later run after := by
  cases change with
  | claim _ _ | reassign _ _ => exact onward.elim
  | fence _ ok => exact .inl ((Nat.lt_succ_self _).trans_le (transitionRun_same ok).epoch.ge)
  | set ok => exact (transitionRun_later ok onward :)
  | expire ok =>
    rcases expireLease_ok ok with rfl | ⟨_,moved⟩
    · exact later_refl _
    · exact .inl ((Nat.lt_succ_self _).trans_le (transitionRun_same moved).epoch.ge)
  | event _ _ ok =>
    rcases applyEvent_ok ok with ⟨checkpoint,rfl⟩ | ⟨target,error,asked,_,moved⟩
    · exact .inr ⟨rfl,rfl,id⟩
    · exact (transitionRun_later moved fun same => onward (same ▸ asked) :)

section
variable (env : Env) (backend : Backend)

theorem expireLeases_grants (now : Time) : Quiet .grants (expireLeases backend now) := by
  refine quiet_andThen (quiet_list backend .runs) (fun runs => quiet_forEach (fun candidate => ?_) runs)
  split
  · exact quiet_ret ()
  · refine quiet_andThen (quiet_listFor .workspaces candidate.id) (fun workspaces => quiet_andThen ?_ (fun _ => quiet_ret ()))
    exact quiet_updateRun backend now candidate.id (fun run => quiet_attempt _) (by decide)

theorem recoverRun_grants (now : Time) (runId : String) (computerId : Option String) (allowRecreate : Bool) :
    Quiet .grants (recoverRun backend now runId computerId allowRecreate) := by
  refine quiet_andThen (quiet_get backend .runs runId) (fun run => quiet_andThen (quiet_get backend .computers _)
    (fun computer => quiet_andThen (quiet_get backend .tasks _) (fun task => ?_)))
  split
  · exact quiet_raise _
  · unfold applyRecovery
    split
    · exact quiet_raise _
    · refine quiet_andThen (quiet_updateRun backend now run.id (quiet_fence backend now computer allowRecreate) (by decide))
        (fun saved => ?_)
      split
      · refine quiet_andThen (quiet_listFor .workspaces saved.id) (fun workspaces =>
          quiet_andThen (quiet_forEach (fun workspace => ?_) workspaces) (fun _ => quiet_ret saved))
        exact quiet_andThen (quiet_save backend now _ (by decide)) (fun _ => quiet_ret ())
      · exact quiet_ret saved

theorem acceptEvent_grants (now : Time) (event : RuntimeEvent) (apply : Option Observer)
    (quiet : ∀ observer ∈ apply, ∀ run, Quiet .grants (observer.effect run)) :
    Quiet .grants (acceptEvent env backend now event (apply.map Observer.apply)) := by
  unfold acceptEvent
  split
  · exact quiet_raise _
  · exact quiet_updateRun backend now event.runId (quiet_acceptOperation (quiet_observer quiet)) (by decide)

theorem step_grants (s : Docs) {op : Op} (admitted : Admitted s op) : Same .grants s (step env backend s op) := by
  cases op with
  | expireLeases now => exact expireLeases_grants backend now s
  | recoverRun now runId computerId allowRecreate => exact recoverRun_grants backend now runId computerId allowRecreate s
  | setRunStatus now runId status error =>
    exact quiet_updateRun backend now runId (fun run => quiet_attempt _) (by decide) s
  | syncSession now session =>
    show Keeps (Same .grants) (syncSession env backend now session) s
    unfold syncSession
    split
    · exact quiet_raise _ s
    · exact quiet_updateRun backend now _ (fun run => quiet_attempt _) (by decide) s
  | acceptEvent now event apply => exact acceptEvent_grants env backend now event apply admitted.2 s
  | _ => exact admitted.elim

theorem may_onward {s : Docs} {op : Op} (admitted : Admitted s op) {label : Label} {run : TaskRun}
    (may : May s op label run) : Onward run label := by
  cases op with
  | expireLeases now => cases may; trivial
  | recoverRun now runId computerId allowRecreate => cases may.1; trivial
  | setRunStatus now runId status error => cases may.1; exact fun asked => admitted asked run may.2
  | syncSession now session =>
    cases may
    intro asked
    cases status : session.status <;> rw [status] at asked <;> cases asked
  | acceptEvent now event apply => cases may.1; exact fun asked => admitted.1 asked run may.2
  | _ => exact admitted.elim

theorem step_ages {s : Docs} (filed : RunsFiled s) {op : Op} (admitted : Admitted s op) :
    RunsFiled (step env backend s op) ∧ Ages s (step env backend s op) := by
  obtain ⟨filed',changes⟩ := step_kept env backend s op filed
  have grants := step_grants env backend s admitted
  refine ⟨filed',fun id run found => ?_,fun id grant found => ?_⟩
  · refine changes.keeps ?_ found (later_refl run)
    rintro before after ⟨label,may,change⟩ sofar
    exact later_trans sofar (change_later change (may_onward admitted may))
  · exact ⟨grant,(grants.find id).trans found,sameTerms_refl grant,fun revoked => revoked⟩

end

end Cowork.GrantSteps
