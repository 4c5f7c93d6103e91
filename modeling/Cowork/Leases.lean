import Cowork.Fencing

/-!
One lease for each epoch of a Task Run. A claim takes any run that is `queued` or
`recovering`, so it leases an epoch twice unless every way into `recovering` starts a
new epoch. A status event of the runtime and `set_run_status` keep the epoch.
-/
namespace Cowork.Leases
open ControlModels Contracts RunState Effects ControlStore Tables List ControlService Transitions
open StoreFrames RunChanges ServiceSteps Fencing

structure LeaseGrant where
  runId : String
  epoch : Nat
  leaseId : String
  deriving DecidableEq

def LeaseGrant.execution (grant : LeaseGrant) : String × Nat := (grant.runId,grant.epoch)

def grants (backend : Backend) (s : Docs) : Op → List LeaseGrant
  | .acquireLease choose now computerId leaseId =>
    match (acquireLease backend choose now computerId leaseId.text s).1 with
    | .ok (some (run,held)) => [⟨run.id,run.epoch,held⟩]
    | _ => []
  | .claimRun choose now computerId leaseId expires =>
    match (claimRun backend choose now computerId leaseId.text expires s).1 with
    | .ok (some run) => [⟨run.id,run.epoch,leaseId.text⟩]
    | _ => []
  | _ => []

structure Ledger where
  docs : Docs
  granted : List LeaseGrant

def Ledger.step (env : Env) (backend : Backend) (ledger : Ledger) (op : Op) : Ledger :=
  ⟨ServiceSteps.step env backend ledger.docs op,ledger.granted ++ grants backend ledger.docs op⟩

/-- The call asks for `recovering` on a run that is not recovering, outside of lease expiry and recovery. -/
def Reopens (s : Docs) : Op → Prop
  | .acceptEvent _ event _ =>
    eventTarget event = some .recovering ∧ ∃ run, s.find .runs event.runId = some run ∧ run.status ≠ .recovering
  | .setRunStatus _ runId status _ =>
    status = .recovering ∧ ∃ run, s.find .runs runId = some run ∧ run.status ≠ .recovering
  | _ => False

structure Passed (epoch : Nat) (run : TaskRun) : Prop where
  reached : epoch ≤ run.epoch
  waiting : run.status = .queued ∨ run.status = .recovering → epoch < run.epoch

variable {epoch : Nat} {run after : TaskRun}

theorem transitionRun_passed {now : Time} {target : RunStatus} {error : Option String}
    (ok : transitionRun now target error run = .ok after) (closed : target = .recovering → run.status = .recovering)
    (passed : Passed epoch run) : Passed epoch after := by
  have same : after.epoch = run.epoch := (transitionRun_same ok).epoch
  rcases transitionRun_ok ok with ⟨_,rfl⟩ | ⟨other,permitted,rfl⟩
  · exact passed
  · refine ⟨same ▸ passed.reached,?_⟩
    grind only [not_queued_again,moved]

theorem superseded_passed (next : after.epoch = run.epoch + 1) (passed : Passed epoch run) : Passed epoch after :=
  ⟨by have := passed.reached; omega,fun _ => by have := passed.reached; omega⟩

def target : Label → Option RunStatus
  | .event event => eventTarget event
  | .set status _ => some status
  | .claim _ | .expire | .fence | .reassign => none

theorem change_passed {env : Env} {label : Label} (change : Change env label run after)
    (closed : target label = some .recovering → run.status = .recovering) (passed : Passed epoch run) :
    Passed epoch after := by
  cases change with
  | @claim now expires leaseId run after waiting ok =>
    have status : after.status = .preparing := transitionRun_status ok
    have same : after.epoch = run.epoch := (transitionRun_same ok).epoch
    refine ⟨same.symm ▸ passed.reached,?_⟩
    rintro (queued | recovering)
    · cases status.symm.trans queued
    · cases status.symm.trans recovering
  | @event now event run after fence newer ok =>
    have before : Passed epoch (renewed now run) := ⟨passed.reached,passed.waiting⟩
    rcases applyEvent_ok ok with ⟨checkpoint,rfl⟩ | ⟨wanted,error,asked,_,moved⟩
    · exact ⟨passed.reached,passed.waiting⟩
    · have kept := transitionRun_passed moved (fun recovering => closed (asked.trans (congrArg some recovering))) before
      exact ⟨kept.reached,kept.waiting⟩
  | @expire now mode run after ok =>
    rcases expireLease_ok ok with rfl | ⟨_,moved⟩
    · exact ⟨passed.reached,passed.waiting⟩
    · exact superseded_passed (transitionRun_same moved).epoch passed
  | fence name ok => exact superseded_passed (transitionRun_same ok).epoch passed
  | reassign name queued => exact ⟨passed.reached,passed.waiting⟩
  | @set now status error run after ok =>
    have kept := transitionRun_passed ok (fun recovering => closed (congrArg some recovering)) passed
    exact ⟨kept.reached,kept.waiting⟩

section
variable (env : Env) (backend : Backend)

theorem sessionStatus_ne_recovering (status : SessionStatus) : sessionStatus status ≠ .recovering := by
  cases status <;> decide

variable {s t : Docs} {granted : List LeaseGrant}

theorem may_closed {op : Op} (closed : ¬Reopens s op) {label : Label} {run : TaskRun} (may : May s op label run)
    (asked : target label = some .recovering) : run.status = .recovering := by
  cases op <;> grind only [sessionStatus_ne_recovering,Reopens,May,target]

def AllPassed (s : Docs) (granted : List LeaseGrant) : Prop :=
  ∀ grant ∈ granted, ∃ run, s.find .runs grant.runId = some run ∧ Passed grant.epoch run

theorem RunsBy.allPassed {R : TaskRun → TaskRun → Prop} (changes : RunsBy R s t)
    (keep : ∀ epoch run after, R run after → Passed epoch run → Passed epoch after) (passed : AllPassed s granted) :
    AllPassed t granted := by
  intro grant member
  obtain ⟨run,found,before⟩ := passed grant member
  exact changes.keeps (keep grant.epoch) found before

theorem claimRun_new {choose : Chooser} {now : Time} {computerId leaseId : String} {expires : Time} {claimed : TaskRun}
    (filed : RunsFiled s) (passed : AllPassed s granted)
    (ran : claimRun backend choose now computerId leaseId expires s = (.ok (some claimed),t)) :
    (claimed.id,claimed.epoch) ∉ granted.map LeaseGrant.execution ∧ t.find .runs claimed.id = some claimed ∧
      Passed claimed.epoch claimed := by
  rcases claimRun_cases backend choose now computerId leaseId expires filed with
    ⟨_,nothing⟩ | ⟨run,after,found,_,waiting,moving,wrote⟩
  · exact absurd (congrArg Prod.fst ran) (nothing claimed)
  · rw [wrote] at ran
    cases ran
    have id : after.id = run.id := (transitionRun_same moving).id
    have epoch : after.epoch = run.epoch := (transitionRun_same moving).epoch
    have status : after.status = .preparing := transitionRun_status moving
    refine ⟨?_,?_,⟨Nat.le_refl _,?_⟩⟩
    · intro known
      obtain ⟨grant,member,same⟩ := mem_map.mp known
      obtain ⟨stored,foundStored,before⟩ := passed grant member
      grind only [cases Passed,touch,LeaseGrant.execution]
    all_goals grind only [find_put_self,touch]

theorem acquireLease_ok {choose : Chooser} {now : Time} {computerId : String} {leaseId held : String} {run : TaskRun}
    (ran : acquireLease backend choose now computerId leaseId s = (.ok (some (run,held)),t)) :
    ∃ u, (expireLeases backend now s).2 = u ∧
      claimRun backend choose now computerId leaseId (now + leaseDuration) u = (.ok (some run),t) := by
  obtain ⟨computer,_,loading,rest⟩ := andThen_returns ran
  obtain ⟨rfl,_,_⟩ := get_ok loading
  split at rest
  · cases rest
  obtain ⟨_,u,expiring,more⟩ := andThen_returns rest
  obtain ⟨claimed,_,claiming,returned⟩ := andThen_returns more
  cases claimed with
  | none => cases returned
  | some taken => cases returned; exact ⟨u,congrArg Prod.snd expiring,claiming⟩

theorem grants_cases (filed : RunsFiled s) (passed : AllPassed s granted) (op : Op) :
    grants backend s op = [] ∨ ∃ grant, grants backend s op = [grant] ∧
      grant.execution ∉ granted.map LeaseGrant.execution ∧ AllPassed (step env backend s op) [grant] := by
  cases op with
  | acquireLease choose now computerId leaseId =>
    rcases ran : acquireLease backend choose now computerId leaseId.text s with ⟨result,t⟩
    rcases result with e | (_ | ⟨run,held⟩)
    · exact .inl (by simp [grants,ran])
    · exact .inl (by simp [grants,ran])
    · right
      obtain ⟨u,rfl,claiming⟩ := acquireLease_ok backend ran
      have expired := @expireLeases_kept env backend (Change env .expire) (fun _ _ change => change) now s filed
      have later : AllPassed _ granted := RunsBy.allPassed expired.2
        (fun _ _ _ change => change_passed change nofun) passed
      obtain ⟨fresh,found,now_passed⟩ := claimRun_new backend expired.1 later claiming
      refine ⟨⟨run.id,run.epoch,held⟩,by simp [grants,ran],fresh,?_⟩
      intro grant member
      rw [mem_singleton.mp member]
      exact ⟨run,by simpa [step,ran] using found,now_passed⟩
  | claimRun choose now computerId leaseId expires =>
    rcases ran : claimRun backend choose now computerId leaseId.text expires s with ⟨result,t⟩
    rcases result with e | (_ | run)
    · exact .inl (by simp [grants,ran])
    · exact .inl (by simp [grants,ran])
    · right
      obtain ⟨fresh,found,now_passed⟩ := claimRun_new backend filed passed ran
      refine ⟨⟨run.id,run.epoch,leaseId.text⟩,by simp [grants,ran],fresh,?_⟩
      intro grant member
      rw [mem_singleton.mp member]
      exact ⟨run,by simpa [step,ran] using found,now_passed⟩
  | _ => exact .inl rfl

structure Sound (ledger : Ledger) : Prop where
  filed : RunsFiled ledger.docs
  passed : AllPassed ledger.docs ledger.granted
  once : (ledger.granted.map LeaseGrant.execution).Nodup

theorem step_sound (ledger : Ledger) (op : Op) (sound : Sound ledger) (closed : ¬Reopens ledger.docs op) :
    Sound (ledger.step env backend op) := by
  have kept := step_kept env backend ledger.docs op sound.filed
  have older : AllPassed (step env backend ledger.docs op) ledger.granted := by
    grind only [RunsBy.allPassed,change_passed,may_closed,cases Sound,By]
  rcases grants_cases env backend sound.filed sound.passed op with nothing | ⟨grant,one,fresh,newer⟩
  · refine ⟨kept.1,?_,?_⟩
    · simpa [Ledger.step,nothing] using older
    · simpa [Ledger.step,nothing] using sound.once
  · refine ⟨kept.1,?_,?_⟩
    · intro known member
      rcases mem_append.mp member with before | here
      · exact older known before
      · rw [one] at here
        exact newer known here
    · simp only [Ledger.step,one,map_append]
      exact nodup_append.mpr ⟨sound.once,by simp,by
        intro a inside b last same
        rw [mem_singleton.mp last] at same
        exact fresh (same ▸ inside)⟩

/-- In every run of the service in which no status event and no `set_run_status`
    opens a run again, no epoch of a run is leased twice. -/
theorem one_lease_per_epoch {s : Docs} (filed : RunsFiled s) {ops : List Op}
    (closed : Permitted (Ledger.step env backend) (fun ledger op => ¬Reopens ledger.docs op) ⟨s,[]⟩ ops) :
    ((reach (Ledger.step env backend) ⟨s,[]⟩ ops).granted.map LeaseGrant.execution).Nodup := by
  have start : Sound ⟨s,[]⟩ := ⟨filed,fun _ none => absurd none not_mem_nil,nodup_nil⟩
  exact (invariant_reach (step_sound env backend) start closed).once

end

def secondLease : Token := ⟨"second",by decide,by decide⟩

def leaseTwice : List Op := lapse ++ [.acquireLease oldestDocument (seconds 32) "laptop" secondLease]

theorem leaseTwice_once :
    ((reach (Ledger.step plainEnv .files) ⟨freshStore,[]⟩ leaseTwice).granted.map LeaseGrant.execution).Nodup ∧
      (reach (Ledger.step plainEnv .files) ⟨freshStore,[]⟩ leaseTwice).granted =
        [⟨"run",1,"lease"⟩,⟨"run",2,"second"⟩] :=
  ⟨one_lease_per_epoch plainEnv .files freshStore_filed ⟨id,id,id,trivial⟩,by decide⟩

/-- The runtime reports the status `recovering`. -/
def recoveringEvent : RuntimeEvent :=
  { id := "event",runId := "run",computerId := "laptop",leaseId := "lease",epoch := 1,seq := 1,kind := .status
    payload := .cons "status" (.str "recovering") .nil
    idFits := lateEvent.idFits,seqPositive := lateEvent.seqPositive }

/-- The runtime reports `recovering`, and the run is leased again in the same epoch. -/
theorem status_event_reopens_the_epoch :
    (reach (Ledger.step plainEnv .files) ⟨freshStore,[]⟩
      [.acquireLease oldestDocument 0 "laptop" firstLease,.acceptEvent (seconds 1) recoveringEvent none,
        .acquireLease oldestDocument (seconds 2) "laptop" secondLease]).granted =
      [⟨"run",1,"lease"⟩,⟨"run",1,"second"⟩] := by decide

end Cowork.Leases
