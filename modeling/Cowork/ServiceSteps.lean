import Cowork.RunChanges

/-!
The service as a state machine: one step is one call of an operation, at any clock time
and with any arguments. `step_kept` says what a step can do to the stored runs.
-/
namespace Cowork.ServiceSteps
open Json ControlModels Contracts RunState Effects ControlStore Tables List ControlService Placement
open StoreFrames RunChanges

inductive Op where
  | acquireLease (choose : Chooser) (now : Time) (computerId : String) (leaseId : Token)
  | claimRun (choose : Chooser) (now : Time) (computerId : String) (leaseId : Token) (expires : Time)
  | acceptEvent (now : Time) (event : RuntimeEvent) (apply : Option Observer)
  | claimCommands (now : Time) (runId computerId leaseId : String) (epoch : Nat)
  | acknowledgeCommand (now : Time) (runId commandId computerId leaseId : String) (epoch : Nat)
      (result error : Option String)
  | queueCommand (now : Time) (commandId runId : String) (kind : CommandKind) (payload : Fields)
      (idempotencyKey : String)
  | expireLeases (now : Time)
  | recoverRun (now : Time) (runId : String) (computerId : Option String) (allowRecreate : Bool)
  | reassignQueuedRun (now : Time) (auditId runId computerId : String)
  | setRunStatus (now : Time) (runId : String) (status : RunStatus) (error : Option String)
  | syncSession (now : Time) (session : CodingSession)

section
variable (env : Env) (backend : Backend)

def step (s : Docs) : Op → Docs
  | .acquireLease choose now computerId leaseId => (acquireLease backend choose now computerId leaseId.text s).2
  | .claimRun choose now computerId leaseId expires =>
    (claimRun backend choose now computerId leaseId.text expires s).2
  | .acceptEvent now event apply => (acceptEvent env backend now event (apply.map Observer.apply) s).2
  | .claimCommands now runId computerId leaseId epoch => (claimCommands backend now runId computerId leaseId epoch s).2
  | .acknowledgeCommand now runId commandId computerId leaseId epoch result error =>
    (acknowledgeCommand backend now runId commandId computerId leaseId epoch result error s).2
  | .queueCommand now commandId runId kind payload key => (queueCommand backend now commandId runId kind payload key s).2
  | .expireLeases now => (expireLeases backend now s).2
  | .recoverRun now runId computerId allowRecreate => (recoverRun backend now runId computerId allowRecreate s).2
  | .reassignQueuedRun now auditId runId computerId => (reassignQueuedRun env backend now auditId runId computerId s).2
  | .setRunStatus now runId status error => (setRunStatus backend now runId status error s).2
  | .syncSession now session => (syncSession env backend now session s).2

end

def May (s : Docs) : Op → Label → TaskRun → Prop
  | .acquireLease _ _ _ leaseId,label,_ => label = .expire ∨ label = .claim leaseId
  | .claimRun _ _ _ leaseId _,label,_ => label = .claim leaseId
  | .acceptEvent _ event _,label,run => label = .event event ∧ s.find .runs event.runId = some run
  | .expireLeases _,label,_ => label = .expire
  | .recoverRun _ runId _ _,label,run => label = .fence ∧ s.find .runs runId = some run
  | .reassignQueuedRun _ _ _ _,label,_ => label = .reassign
  | .setRunStatus _ runId status error,label,run => label = .set status error ∧ s.find .runs runId = some run
  | .syncSession _ session,label,_ => label = .set (sessionStatus session.status) session.lastError
  | .claimCommands _ _ _ _ _,_,_ => False
  | .acknowledgeCommand _ _ _ _ _ _ _ _,_,_ => False
  | .queueCommand _ _ _ _ _ _,_,_ => False

def By (env : Env) (s : Docs) (op : Op) (run after : TaskRun) : Prop :=
  ∃ label, May s op label run ∧ Change env label run after

section
variable {env : Env} (backend : Backend)

theorem expireLeases_kept {R : TaskRun → TaskRun → Prop} (expire : ∀ run after, Change env .expire run after → R run after)
    (now : Time) (s : Docs) : Keeps (RunsKept R) (expireLeases backend now) s := by
  refine keeps_andThen (runsKept_trans R) (kept_of_same (quiet_list backend .runs s)) ?_
  intro runs t _
  apply keeps_forEach (runsKept_refl R) (runsKept_trans R)
  intro candidate _ u
  split
  · exact runsKept_refl R u
  · refine keeps_andThen (runsKept_trans R) (kept_of_same (quiet_listFor .workspaces candidate.id u)) ?_
    intro workspaces v _
    refine keeps_andThen (runsKept_trans R) (updateRun_attempt_kept backend now candidate.id ?_ v ?_) ?_
    · exact fun run after ok => expireLease_id ok
    · exact fun run after _ ok _ => expire _ _ (.expire ok)
    · exact fun _ w _ => runsKept_refl R w

variable {s t : Docs} {R : TaskRun → TaskRun → Prop} {c : Collection}

theorem claimRun_cases (choose : Chooser) (now : Time) (computerId leaseId : String) (expires : Time)
    (filed : RunsFiled s) : (claimRun backend choose now computerId leaseId expires s).2 = s ∧
    (∀ run, (claimRun backend choose now computerId leaseId expires s).1 ≠ .ok (some run)) ∨ ∃ run after,
    s.find .runs run.id = some run ∧ run.valid = true ∧ (run.status = .queued ∨ run.status = .recovering) ∧
    transitionRun now .preparing none (leased leaseId expires run) = .ok after ∧
    claimRun backend choose now computerId leaseId expires s =
    (.ok (some (touch now .runs after)),s.put .runs run.id (touch now .runs after)) := by
  rcases picked : choose.pick (candidates backend computerId s) with _ | run
  · left
    simp [claimRun,andThen,picked]
  · by_cases loadable : run.valid = true
    · have member := choose.member picked
      simp only [candidates,mem_filter,Bool.and_eq_true,Bool.or_eq_true,decide_eq_true_eq] at member
      obtain ⟨stored,⟨_,_⟩,waiting⟩ := member
      obtain ⟨id,found⟩ := mem_all.mp stored
      have own : run.id = id := filed id run found
      subst own
      rcases moving : transitionRun now .preparing none (leased leaseId expires run) with e | after
      · left
        simp [claimRun,andThen,picked,loadable,moving]
      · right
        refine ⟨run,after,found,loadable,waiting,moving,?_⟩
        have name : after.id = run.id := (transitionRun_same moving).id
        have good : wellFormedId run.id = true := wellFormed_of_valid (c := .runs) loadable
        simp [claimRun,andThen,picked,loadable,moving,save,docId,name,good]
    · left
      simp [claimRun,andThen,picked,loadable]

theorem claimRun_kept {leaseId : Token} (claim : ∀ run after, Change env (.claim leaseId) run after → R run after)
    (choose : Chooser) (now : Time) (computerId : String) (expires : Time) (s : Docs) :
    Keeps (RunsKept R) (claimRun backend choose now computerId leaseId.text expires) s := by
  intro filed
  rcases claimRun_cases backend choose now computerId leaseId.text expires filed with
    ⟨same,_⟩ | ⟨run,after,found,_,waiting,moving,claimed⟩
  · rw [same]; exact runsKept_refl R s filed
  · rw [claimed]
    exact runsKept_put (same_refl s) found (transitionRun_same moving).id
      (claim _ _ (.claim waiting moving)) filed

theorem quiet_heartbeat (now : Time) (computerId : String) (count : Nat) :
    Quiet .runs (heartbeat backend now computerId count) := by
  refine quiet_andThen (quiet_get backend .computers computerId) (fun computer => ?_)
  split
  · exact quiet_raise _
  · exact quiet_save backend now _ (by decide)

theorem quiet_activeCount (computerId : String) : Quiet .runs (activeCount backend computerId) :=
  quiet_andThen (quiet_list backend .runs) (fun _ => quiet_ret _)

variable (env)

theorem quiet_expireStaleComputers (now : Time) : Quiet .runs (expireStaleComputers env backend now) := by
  refine quiet_andThen (quiet_list backend .computers) (fun computers => quiet_forEach (fun computer => ?_) computers)
  split
  · exact quiet_ret ()
  · split
    · exact quiet_andThen (quiet_save backend now _ (by decide)) (fun _ => quiet_ret ())
    · exact quiet_ret ()

theorem quiet_listComputers (now : Time) : Quiet .runs (listComputers env backend now) :=
  quiet_andThen (quiet_activeCount backend _) (fun _ => quiet_andThen (quiet_heartbeat backend now _ _) (fun _ =>
    quiet_andThen (quiet_expireStaleComputers env backend now) (fun _ =>
      quiet_andThen (quiet_list backend .computers) (fun _ => quiet_ret _))))

theorem quiet_eligibleComputers (now : Time) (project : Option CodeProject) (scope : TaskResourceScope)
    (engineId : String) : Quiet .runs (eligibleComputers env backend now project scope engineId) := by
  refine quiet_andThen (quiet_attempt _) (fun _ => quiet_andThen (quiet_listComputers env backend now) (fun _ => ?_))
  refine quiet_andThen (quiet_collect (fun computer => ?_) _) (fun _ => quiet_ret _)
  exact quiet_andThen (quiet_activeCount backend computer.id) (fun _ => quiet_ret _)

theorem list_valid {items : List (Model c)} (ran : list backend c s = (.ok items,t)) {d : Model c}
    (member : d ∈ items) : valid c d = true := by grind only [ControlStore.list,mem_newestFirst,mem_filter]

theorem eligibleComputers_valid {now : Time} {project : Option CodeProject} {scope : TaskResourceScope}
    {engineId : String} {found : List Computer}
    (ran : eligibleComputers env backend now project scope engineId s = (.ok found,t)) {computer : Computer}
    (member : computer ∈ found) : computer.valid = true := by
  obtain ⟨_,_,_,rest⟩ := andThen_returns ran
  obtain ⟨listed,_,listing,rest⟩ := andThen_returns rest
  obtain ⟨entries,_,counting,returned⟩ := andThen_returns rest
  cases returned
  simp only [mem_map,mem_filter] at member
  obtain ⟨entry,⟨inside,_⟩,rfl⟩ := member
  obtain ⟨item,offered,_,_,counted⟩ := collect_returns counting inside
  obtain ⟨_,_,_,returned⟩ := andThen_returns counted
  cases returned
  obtain ⟨_,_,_,rest⟩ := andThen_returns listing
  obtain ⟨_,_,_,rest⟩ := andThen_returns rest
  obtain ⟨_,_,_,rest⟩ := andThen_returns rest
  obtain ⟨all,_,reading,returned⟩ := andThen_returns rest
  cases returned
  simp only [mem_filter] at offered
  exact list_valid backend reading offered.1.1

theorem quiet_recordSecurityEvent (event : SecurityAuditEvent) (other : .audit ≠ c) :
    Quiet c (recordSecurityEvent backend event) :=
  quiet_andThen (quiet_construct .audit event) (fun checked =>
    quiet_andThen (quiet_saveAuditEvent backend checked other) (fun _ => quiet_ret ()))

theorem acceptEvent_kept (now : Time) (event : RuntimeEvent) (apply : Option Observer) (s : Docs)
    (applied : ∀ run after, s.find .runs event.runId = some run → Change env (.event event) run after → R run after) :
    Keeps (RunsKept R) (acceptEvent env backend now event (apply.map Observer.apply)) s := by
  have observed : ∀ {run after : TaskRun} {s t : Docs},
      observe (apply.map Observer.apply) run s = (.ok after,t) → after = run := by
    intro run after s t ran
    cases apply with
    | none => cases ran; rfl
    | some observer =>
      obtain ⟨_,_,_,returned⟩ := andThen_returns ran
      cases returned; rfl
  unfold acceptEvent
  split
  · exact keeps_raise (runsKept_refl R) _ s
  · refine updateRun_kept backend now event.runId ?_ ?_ s ?_
    · exact quiet_acceptOperation (quiet_observer fun observer _ => observer.runs)
    · intro run u after t made
      rcases acceptOperation_ok made with ⟨_,_,rfl,_⟩ | ⟨_,_,_,mid,last,ok,ran,rfl⟩
      · rfl
      · have same := observed ran
        subst same
        exact (applyEvent_same ok).id
    · intro run after t found _ made differs
      rcases acceptOperation_ok made with ⟨_,_,same,_⟩ | ⟨_,fenced,newer,mid,last,ok,ran,rfl⟩
      · exact absurd same differs
      · have same := observed ran
        subst same
        exact applied run _ found (.event fenced newer ok)

theorem fence_ok {now : Time} {target : Computer} {allowRecreate : Bool} {run after : TaskRun}
    (ok : fence backend now target allowRecreate run s = (.ok after,t)) :
    ∃ mode, transitionRun now .recovering none { superseded mode run with computerId := target.id } = .ok after := by
  unfold fence at ok
  split at ok
  · obtain ⟨_,_,_,rest⟩ := andThen_returns ok
    split at rest
    · cases rest
    · split at rest
      · cases rest
      · exact ⟨.recreate,(attempt_returns rest).1⟩
  · exact ⟨.restore,(attempt_returns ok).1⟩

theorem quiet_fence (now : Time) (target : Computer) (allowRecreate : Bool) (run : TaskRun) :
    Quiet c (fence backend now target allowRecreate run) := by
  unfold fence
  split
  · refine quiet_andThen (quiet_get backend .tasks run.taskId) (fun task => ?_)
    split
    · exact quiet_raise _
    · split
      · exact quiet_raise _
      · exact quiet_attempt _
  · exact quiet_attempt _

theorem applyRecovery_kept (now : Time) (runId : String) {target : Computer} (checked : target.valid = true)
    (allowRecreate : Bool) (s : Docs) (fenced : ∀ run after, s.find .runs runId = some run →
    Change env .fence run after → R run after) :
    Keeps (RunsKept R) (applyRecovery backend now runId target allowRecreate) s := by
  have name : named 128 target.id = true := by
    simp only [Computer.valid,Bool.and_eq_true] at checked
    exact checked.1.1.1.2
  unfold applyRecovery
  split
  · exact keeps_raise (runsKept_refl R) _ s
  · refine keeps_andThen (runsKept_trans R)
      (updateRun_kept backend now runId (quiet_fence backend now target allowRecreate) ?_ s ?_) ?_
    · intro run u after t made
      obtain ⟨mode,ok⟩ := fence_ok backend made
      exact (transitionRun_same ok).id
    · intro run after t found _ made _
      obtain ⟨mode,ok⟩ := fence_ok backend made
      exact fenced run _ found (.fence name ok)
    · intro saved t _
      split
      · refine kept_of_same (quiet_andThen (quiet_listFor .workspaces saved.id) (fun workspaces => ?_) t)
        refine quiet_andThen (quiet_forEach (fun workspace => ?_) workspaces) (fun _ => quiet_ret saved)
        exact quiet_andThen (quiet_save backend now _ (by decide)) (fun _ => quiet_ret ())
      · exact runsKept_refl R t

theorem recoverRun_kept (now : Time) (runId : String) (computerId : Option String) (allowRecreate : Bool) (s : Docs)
    (fenced : ∀ run after, s.find .runs runId = some run → Change env .fence run after → R run after) :
    Keeps (RunsKept R) (recoverRun backend now runId computerId allowRecreate) s := by
  intro filed
  refine keeps_andThen (runsKept_trans R) (kept_of_same (quiet_get backend .runs runId s)) ?_ filed
  intro run t loading
  obtain ⟨rfl,found,_⟩ := get_ok loading
  have own : run.id = runId := filed runId run found
  refine keeps_andThen (runsKept_trans R) (kept_of_same (quiet_get backend .computers _ _)) ?_
  intro computer t loadingComputer
  obtain ⟨rfl,_,checked⟩ := get_ok loadingComputer
  refine keeps_andThen (runsKept_trans R) (kept_of_same (quiet_get backend .tasks _ _)) ?_
  intro task t loadingTask
  obtain ⟨rfl,_,_⟩ := get_ok loadingTask
  split
  · exact keeps_raise (runsKept_refl R) _ _
  · rw [own]
    exact applyRecovery_kept env backend now runId checked allowRecreate _ fenced

theorem reassignQueuedRun_kept (now : Time) (auditId runId computerId : String) (s : Docs)
    (moved : ∀ run after, Change env .reassign run after → R run after) :
    Keeps (RunsKept R) (reassignQueuedRun env backend now auditId runId computerId) s := by
  refine keeps_andThen (runsKept_trans R) (kept_of_same (quiet_get backend .runs runId s)) ?_
  intro run t _
  split
  · exact keeps_raise (runsKept_refl R) _ t
  refine keeps_andThen (runsKept_trans R) (kept_of_same (quiet_get backend .tasks _ t)) ?_
  intro task u _
  split
  · exact keeps_raise (runsKept_refl R) _ u
  split
  · exact keeps_raise (runsKept_refl R) _ u
  refine keeps_andThen (runsKept_trans R) (kept_of_same (quiet_eligibleComputers env backend now _ _ _ u)) ?_
  intro eligible v offered
  split
  · exact keeps_raise (runsKept_refl R) _ v
  rename_i chosen
  have name : named 128 computerId = true := by
    simp only [Bool.not_eq_true',Bool.not_eq_false,any_eq_true,decide_eq_true_eq] at chosen
    obtain ⟨computer,member,rfl⟩ := chosen
    have checked := eligibleComputers_valid env backend offered member
    simp only [Computer.valid,Bool.and_eq_true] at checked
    exact checked.1.1.1.2
  refine keeps_andThen (runsKept_trans R) (updateRun_kept backend now run.id ?_ ?_ v ?_) ?_
  · intro current
    split
    · exact quiet_raise _
    · exact quiet_ret _
  · intro current w after t made
    split at made
    · cases made
    · cases made; rfl
  · intro current after t _ _ made _
    split at made
    · cases made
    · rename_i queued
      cases made; exact moved _ _ (.reassign name (not_not.mp queued))
  · intro saved w _
    refine kept_of_same (quiet_andThen (quiet_listFor .workspaces run.id) (fun workspaces => ?_) w)
    refine quiet_andThen (quiet_forEach (fun workspace => ?_) workspaces) (fun _ =>
      quiet_andThen (quiet_recordSecurityEvent backend _ (by decide)) (fun _ => quiet_ret saved))
    exact quiet_andThen (quiet_save backend now _ (by decide)) (fun _ => quiet_ret ())

/-- The leases that ran out first, then the claim. -/
theorem acquireLease_kept {leaseId : Token} {E C : TaskRun → TaskRun → Prop}
    (expire : ∀ run after, Change env .expire run after → E run after)
    (claim : ∀ run after, Change env (.claim leaseId) run after → C run after) (choose : Chooser) (now : Time)
    (computerId : String) (s : Docs) :
    ∃ t, RunsKept E s t ∧ RunsKept C t (acquireLease backend choose now computerId leaseId.text s).2 := by
  rcases ran : acquireLease backend choose now computerId leaseId.text s with ⟨result,last⟩
  have read := get_state backend .computers computerId s
  rcases andThen_cases ran with ⟨e,failed,_⟩ | ⟨computer,t,loaded,rest⟩
  · rw [failed] at read
    exact ⟨s,runsKept_refl E s,read ▸ runsKept_refl C s⟩
  · rw [loaded] at read
    rw [show t = s from read] at rest
    split at rest
    · cases rest; exact ⟨s,runsKept_refl E s,runsKept_refl C s⟩
    · have expired := expireLeases_kept backend expire now s
      rcases andThen_cases rest with ⟨e,failed,_⟩ | ⟨_,u,swept,more⟩
      · rw [Keeps,failed] at expired
        exact ⟨last,expired,runsKept_refl C last⟩
      · rw [Keeps,swept] at expired
        have claimed := claimRun_kept backend claim choose now computerId (now + leaseDuration) u
        rcases andThen_cases more with ⟨e,failed,_⟩ | ⟨_,v,took,returned⟩
        · rw [Keeps,failed] at claimed
          exact ⟨u,expired,claimed⟩
        · cases returned
          rw [Keeps,took] at claimed
          exact ⟨u,expired,claimed⟩

theorem claimCommands_kept (now : Time) (runId computerId leaseId : String) (epoch : Nat) (s : Docs) :
    Keeps (RunsKept R) (claimCommands backend now runId computerId leaseId epoch) s := by
  have returns : ∀ run (u : Docs) after (kept : List RuntimeCommand) t,
      (andThen (attempt (requireFence now run computerId leaseId epoch)) (fun _ =>
        andThen (listFor .commands runId) (fun commands =>
          andThen (collect (fun command => save backend now .commands (claimedCommand now command))
            (commands.filter (claimable now run.epoch))) (fun claimed => ret (run,claimed))))) u =
        (.ok (after,kept),t) → after = run := by
    intro run u after kept t made
    obtain ⟨_,_,_,rest⟩ := andThen_returns made
    obtain ⟨_,_,_,rest⟩ := andThen_returns rest
    obtain ⟨_,_,_,returned⟩ := andThen_returns rest
    cases returned; rfl
  refine keeps_andThen (runsKept_trans R) (updateRunWith_kept backend now runId ?_ ?_ s ?_) ?_
  · intro run
    refine quiet_andThen (quiet_attempt _) (fun _ => quiet_andThen (quiet_listFor .commands runId) (fun commands => ?_))
    exact quiet_andThen (quiet_collect (fun command => quiet_save backend now _ (by decide)) _) (fun _ => quiet_ret _)
  · exact fun run u after kept t made => congrArg TaskRun.id (returns run u after kept t made)
  · exact fun run after kept t _ _ made differs => absurd (returns run s after kept t made) differs
  · exact fun _ t _ => runsKept_refl R t

theorem quiet_acknowledgeCommand (now : Time) (runId commandId computerId leaseId : String) (epoch : Nat)
    (result error : Option String) :
    Quiet .runs (acknowledgeCommand backend now runId commandId computerId leaseId epoch result error) := by
  refine quiet_andThen (quiet_get backend .runs runId) (fun run => quiet_andThen (quiet_attempt _) (fun _ =>
    quiet_andThen (quiet_orMissing (quiet_get backend .commands commandId) (quiet_raise _)) (fun command => ?_)))
  split
  · exact quiet_raise _
  split
  · exact quiet_raise _
  split
  · exact quiet_ret _
  · exact quiet_andThen (quiet_save backend now _ (by decide)) (fun _ => quiet_ret _)

theorem quiet_queueCommand (now : Time) (commandId runId : String) (kind : CommandKind) (payload : Fields)
    (key : String) : Quiet .runs (queueCommand backend now commandId runId kind payload key) := by
  refine quiet_andThen (quiet_get backend .runs runId) (fun run => quiet_andThen ?_ (fun known => ?_))
  · split
    · exact quiet_ret _
    · exact quiet_listFor .commands runId
  · split
    · exact quiet_ret _
    · exact quiet_andThen (quiet_construct .commands _) (fun _ => quiet_save backend now _ (by decide))

theorem step_kept (s : Docs) (op : Op) : RunsKept (By env s op) s (step env backend s op) := by
  cases op with
  | acquireLease choose now computerId leaseId =>
    have by_ : ∀ label, label = .expire ∨ label = .claim leaseId → ∀ run after, Change env label run after →
        By env s (.acquireLease choose now computerId leaseId) run after :=
      fun label may _ _ change => ⟨label,may,change⟩
    obtain ⟨t,expired,claimed⟩ := acquireLease_kept env backend (by_ .expire (.inl rfl)) (by_ (.claim leaseId) (.inr rfl))
      choose now computerId s
    exact runsKept_trans _ s t _ expired claimed
  | claimRun choose now computerId leaseId expires =>
    exact claimRun_kept backend (fun _ _ change => ⟨_,rfl,change⟩) choose now computerId expires s
  | acceptEvent now event apply =>
    exact acceptEvent_kept env backend now event apply s (fun _ _ found change => ⟨_,⟨rfl,found⟩,change⟩)
  | claimCommands now runId computerId leaseId epoch =>
    exact claimCommands_kept backend now runId computerId leaseId epoch s
  | acknowledgeCommand now runId commandId computerId leaseId epoch result error =>
    exact kept_of_same (quiet_acknowledgeCommand backend now runId commandId computerId leaseId epoch result error s)
  | queueCommand now commandId runId kind payload key =>
    exact kept_of_same (quiet_queueCommand backend now commandId runId kind payload key s)
  | expireLeases now => exact expireLeases_kept backend (fun _ _ change => ⟨_,rfl,change⟩) now s
  | recoverRun now runId computerId allowRecreate =>
    exact recoverRun_kept env backend now runId computerId allowRecreate s
      (fun _ _ found change => ⟨_,⟨rfl,found⟩,change⟩)
  | reassignQueuedRun now auditId runId computerId =>
    exact reassignQueuedRun_kept env backend now auditId runId computerId s (fun _ _ change => ⟨_,rfl,change⟩)
  | setRunStatus now runId status error =>
    exact updateRun_attempt_kept backend now runId (fun _ _ ok => (transitionRun_same ok).id) s
      (fun _ _ found ok _ => ⟨_,⟨rfl,found⟩,.set ok⟩)
  | syncSession now session =>
    show Keeps (RunsKept _) (syncSession env backend now session) s
    unfold syncSession
    split
    · exact keeps_raise (runsKept_refl _) _ s
    · refine updateRun_attempt_kept backend now _ ?_ s ?_
      · intro run after ok
        unfold reconcile at ok
        split at ok
        · cases ok; rfl
        split at ok
        · cases ok; rfl
        · exact (transitionRun_same ok).id
      · intro run after _ ok differs
        unfold reconcile at ok
        split at ok
        · cases ok; exact absurd rfl differs
        split at ok
        · cases ok; exact absurd rfl differs
        · exact ⟨_,rfl,.set ok⟩

end

end Cowork.ServiceSteps
