import Cowork.Fencing

/-!
Delivery of runtime events to `accept_event`, in any order and as often as the runtime
likes; the callback that projects an event may raise. A delivery commits its event when
the stored run is another one afterwards.
-/
namespace Cowork.EventDelivery
open ControlModels RunState Effects ControlStore Tables List ControlService Transitions StoreFrames
open RunChanges Fencing

/-- A callback may raise, write other records and change the run, but does not write the runs, hand the run to another
    execution or make it unloadable. -/
structure Callback where
  apply : TaskRun → Prog Docs Err TaskRun
  runs : ∀ run s, (apply run s).2 .runs = s .runs
  id : ∀ {run s after t}, apply run s = (.ok after,t) → after.id = run.id
  computerId : ∀ {run s after t}, apply run s = (.ok after,t) → after.computerId = run.computerId
  epoch : ∀ {run s after t}, apply run s = (.ok after,t) → after.epoch = run.epoch
  loadable : ∀ {run s after t}, apply run s = (.ok after,t) → run.valid = true → after.valid = true

structure Delivery (runId : String) where
  now : Time
  event : RuntimeEvent
  callback : Option Callback
  here : event.runId = runId

section
variable (env : Env) (backend : Backend) {runId : String}

def Delivery.call (delivery : Delivery runId) : Prog Docs Err TaskRun :=
  acceptEvent env backend delivery.now delivery.event (delivery.callback.map Callback.apply)

structure Commit where
  event : RuntimeEvent
  outcome : Except Err TaskRun

structure Journal where
  docs : Docs
  commits : List Commit

def deliver (journal : Journal) (delivery : Delivery runId) : Journal :=
  let result := delivery.call env backend journal.docs
  { docs := result.2
    commits := if result.2.find .runs runId = journal.docs.find .runs runId then journal.commits
      else journal.commits ++ [⟨delivery.event,result.1⟩] }

structure Applied (delivery : Delivery runId) (s : Docs) (run after : TaskRun) : Prop where
  spoken : delivery.event.protocolVersion = runtimeProtocolVersion
  fence : requireFence delivery.now run delivery.event.computerId delivery.event.leaseId delivery.event.epoch = .ok ()
  newer : run.lastEventSeq < delivery.event.seq
  effects : ∃ applied observed t, applyEvent env delivery.now delivery.event (renewed delivery.now run) = .ok applied ∧
    observe (delivery.callback.map Callback.apply) applied s = (.ok observed,t) ∧
    after = touch delivery.now .runs (recorded delivery.event observed)

theorem observe_quiet (callback : Option Callback) (run : TaskRun) : Quiet .runs (observe (callback.map Callback.apply) run) := by
  cases callback with
  | none => exact quiet_ret run
  | some callback => exact callback.runs run

variable {run after : TaskRun} {s : Docs} {delivery : Delivery runId} {journal : Journal}

theorem observe_ok {callback : Option Callback} {t : Docs}
    (ran : observe (callback.map Callback.apply) run s = (.ok after,t)) :
    after.id = run.id ∧ after.computerId = run.computerId ∧ after.epoch = run.epoch ∧
      (run.valid = true → after.valid = true) := by
  cases callback with
  | none => cases ran; exact ⟨rfl,rfl,rfl,fun loads => loads⟩
  | some callback => exact ⟨callback.id ran,callback.computerId ran,callback.epoch ran,callback.loadable ran⟩

theorem call_cases (filed : RunsFiled s) (found : s.find .runs runId = some run) (loadable : run.valid = true)
    (delivery : Delivery runId) :
    (∃ e, (delivery.call env backend s).1 = .error e ∧ Same .runs s (delivery.call env backend s).2) ∨
      (redelivered delivery.event run ∧ delivery.call env backend s = (.ok run,s)) ∨
      ∃ after t, Applied env delivery s run after ∧ Same .runs s t ∧
        delivery.call env backend s = (.ok after,t.put .runs runId after) := by
  obtain ⟨now,event,callback,rfl⟩ := delivery
  have loading := get_stored backend filed found loadable
  show (∃ e, (acceptEvent env backend now event (callback.map Callback.apply) s).1 = .error e ∧
      Same .runs s (acceptEvent env backend now event (callback.map Callback.apply) s).2) ∨ _ ∨ _
  by_cases spoken : event.protocolVersion = runtimeProtocolVersion
  · have calls : ∀ s, acceptEvent env backend now event (callback.map Callback.apply) s =
        updateRun backend now event.runId (acceptOperation env now event (callback.map Callback.apply)) s := by
      intro s
      simp [acceptEvent,spoken]
    rcases operating : acceptOperation env now event (callback.map Callback.apply) run s with ⟨result,t⟩
    have silent : Same .runs s t := by
      simpa [Keeps,operating] using @quiet_acceptOperation env now event _ _ (observe_quiet callback) run s
    cases result with
    | error e =>
      left
      rw [calls]; exact ⟨e,updateRun_failed loading operating silent⟩
    | ok after =>
      rcases acceptOperation_ok operating with ⟨again,_,rfl,rfl⟩ | ⟨_,fenced,newer,applied,observed,applying,observing,rfl⟩
      · exact .inr (.inl ⟨again,(calls _).trans (updateRun_unchanged loading operating)⟩)
      · have own : (recorded event observed).id = run.id := (observe_ok observing).1.trans (applyEvent_same applying).id
        have differs : recorded event observed ≠ run := by
          intro same
          have : event.seq = run.lastEventSeq := congrArg TaskRun.lastEventSeq same
          omega
        exact .inr (.inr ⟨_,t,⟨spoken,fenced,newer,applied,observed,t,applying,observing,rfl⟩,silent,
          (calls _).trans (updateRun_writes backend now filed found loadable operating own differs)⟩)
  · left
    simp [acceptEvent,spoken,same_refl]

/-- The run answers a redelivery: the event was the last one applied, by the execution the run still belongs to. -/
structure Answers (event : RuntimeEvent) (run : TaskRun) : Prop where
  runId : event.runId = run.id
  spoken : event.protocolVersion = runtimeProtocolVersion
  computerId : run.computerId = event.computerId
  epoch : run.epoch = event.epoch
  last : redelivered event run

theorem Applied.answers (own : run.id = runId) (applied : Applied env delivery s run after) :
    Answers delivery.event after := by
  obtain ⟨spoken,fenced,_,mid,observed,t,applying,observing,rfl⟩ := applied
  obtain ⟨computer,epoch,_,_⟩ := requireFence_ok fenced
  obtain ⟨id,sameComputer,sameEpoch,_⟩ := observe_ok observing
  have same := applyEvent_same applying
  exact ⟨delivery.here.trans (own.symm.trans (id.trans same.id).symm),spoken,(sameComputer.trans same.computerId).trans computer,
    (sameEpoch.trans same.epoch).trans epoch,rfl,rfl⟩

theorem Applied.loadable (before : run.valid = true) (applied : Applied env delivery s run after) : after.valid = true := by
  obtain ⟨_,_,_,mid,observed,t,applying,observing,rfl⟩ := applied
  have kept : mid.valid = true := by grind only [applyEvent_ok,transitionRun_valid,TaskRun.valid,renewed]
  obtain ⟨wellFormed,id,task,computer,epoch,lease,_,error⟩ := run_valid_iff.mp ((observe_ok observing).2.2.2 kept)
  have name : fits 128 (recorded delivery.event observed).lastEventId = true := by
    simpa [recorded,fits] using delivery.event.idFits
  exact run_valid_iff.mpr ⟨wellFormed,id,task,computer,epoch,lease,name,error⟩

theorem call_again (filed : RunsFiled s) (found : s.find .runs runId = some run) (loadable : run.valid = true)
    (delivery : Delivery runId) (answers : Answers delivery.event run) : delivery.call env backend s = (.ok run,s) := by
  obtain ⟨now,event,callback,rfl⟩ := delivery
  have owner : requireEventOwner run event.computerId event.epoch = .ok () := by
    simp [requireEventOwner,answers.computerId,answers.epoch]
  have operating : acceptOperation env now event (callback.map Callback.apply) run s = (.ok run,s) := by
    have again : redelivered event run := answers.last
    simp [acceptOperation,again,andThen,owner]
  have spoken : event.protocolVersion = runtimeProtocolVersion := answers.spoken
  unfold Delivery.call acceptEvent
  rw [if_neg (not_not.mpr spoken)]
  exact updateRun_unchanged (get_stored backend filed found loadable) operating

/-- The stored run carries the newest event that changed it, and answers it with what its call returned. -/
structure Exact (runId : String) (journal : Journal) (run : TaskRun) : Prop where
  filed : RunsFiled journal.docs
  found : journal.docs.find .runs runId = some run
  loadable : run.valid = true
  newest : ∀ commit ∈ journal.commits, commit.event.seq ≤ run.lastEventSeq
  increasing : (journal.commits.map (fun commit => commit.event.seq)).Pairwise (· < ·)
  answered : ∀ last, journal.commits.getLast? = some last → last.outcome = .ok run ∧ Answers last.event run

theorem deliver_same (holds : Exact runId journal run)
    (same : Same .runs journal.docs (delivery.call env backend journal.docs).2) :
    Exact runId (deliver env backend journal delivery) run := by
  have still := same.find runId
  have commits : (deliver env backend journal delivery).commits = journal.commits := by simp [deliver,still]
  refine ⟨(kept_of_same (R := Eq) same holds.filed).1,still.trans holds.found,holds.loadable,?_,?_,?_⟩
  · rw [commits]; exact holds.newest
  · rw [commits]; exact holds.increasing
  · rw [commits]; exact holds.answered

theorem deliver_exact (holds : Exact runId journal run) (delivery : Delivery runId) :
    ∃ after, Exact runId (deliver env backend journal delivery) after := by
  rcases call_cases env backend holds.filed holds.found holds.loadable delivery with
    ⟨_,_,same⟩ | ⟨_,again⟩ | ⟨after,t,applied,silent,wrote⟩
  · exact ⟨run,deliver_same env backend holds same⟩
  · exact ⟨run,deliver_same env backend holds (by rw [again]; exact same_refl _)⟩
  · have own : run.id = runId := holds.filed _ _ holds.found
    have answers := applied.answers env own
    have seq : after.lastEventSeq = delivery.event.seq := answers.last.1.symm
    have sameId : after.id = run.id := answers.runId.symm.trans (delivery.here.trans own.symm)
    have foundAfter : (delivery.call env backend journal.docs).2.find .runs runId = some after := by
      rw [wrote]; exact find_put_self ..
    have differs : (delivery.call env backend journal.docs).2.find .runs runId ≠ journal.docs.find .runs runId := by
      grind only [holds.found,applied.newer]
    have commits : (deliver env backend journal delivery).commits =
        journal.commits ++ [⟨delivery.event,.ok after⟩] := by
      show (if _ then _ else _) = _
      rw [if_neg differs,wrote]
    have filed : RunsFiled (delivery.call env backend journal.docs).2 := by
      rw [wrote]
      exact (runsKept_put (R := fun _ _ => True) silent holds.found sameId trivial holds.filed).1
    refine ⟨after,filed,foundAfter,applied.loadable env holds.loadable,?_,?_,?_⟩
    all_goals grind only [mem_append,mem_singleton,map_append,pairwise_append,
      pairwise_singleton,mem_map,map_cons,map_nil,getLast?_concat,cases Exact,cases Applied]

theorem reach_exact (holds : Exact runId journal run) (deliveries : List (Delivery runId)) :
    ∃ after, Exact runId (reach (deliver env backend) journal deliveries) after := by
  induction deliveries generalizing journal run with
  | nil => exact ⟨run,holds⟩
  | cons delivery rest ih =>
    obtain ⟨after,next⟩ := deliver_exact env backend holds delivery
    exact ih next

/-- The events that changed the run did so in the order of their numbers, once each; a call that raises leaves the run
    as it was; the last one is acknowledged again with the same answer. -/
theorem events_commit_once {s : Docs} (filed : RunsFiled s) {run : TaskRun} (found : s.find .runs runId = some run)
    (loadable : run.valid = true) (deliveries : List (Delivery runId)) :
    ∃ journal stored, reach (deliver env backend) ⟨s,[]⟩ deliveries = journal ∧
      journal.docs.find .runs runId = some stored ∧
      (journal.commits.map (fun commit => commit.event.seq)).Pairwise (· < ·) ∧
      (journal.commits.map Commit.event).Nodup ∧
      (∀ delivery : Delivery runId,(∃ e, (delivery.call env backend journal.docs).1 = .error e) →
        (delivery.call env backend journal.docs).2.find .runs runId = some stored) ∧
      (∀ delivery : Delivery runId,(delivery.call env backend journal.docs).2.find .runs runId ≠ some stored →
        ∃ after, Applied env delivery journal.docs stored after ∧
          (delivery.call env backend journal.docs).2.find .runs runId = some after) ∧
      ∀ last, journal.commits.getLast? = some last → ∃ first, last.outcome = .ok first ∧
        ∀ delivery : Delivery runId, delivery.event = last.event →
          ∃ again, delivery.call env backend journal.docs = (.ok again,journal.docs) ∧
            (again.status,again.lastEventSeq,again.lastEventId) = (first.status,first.lastEventSeq,first.lastEventId) := by
  have start : Exact runId ⟨s,[]⟩ run :=
    ⟨filed,found,loadable,fun _ none => absurd none not_mem_nil,List.Pairwise.nil,fun _ none => by cases none⟩
  obtain ⟨stored,holds⟩ := reach_exact env backend start deliveries
  refine ⟨_,stored,rfl,holds.found,holds.increasing,?_,?_,?_,?_⟩
  · have ordered := holds.increasing
    rw [pairwise_map] at ordered
    rw [List.Nodup,pairwise_map]
    exact ordered.imp (fun less same => absurd (congrArg RuntimeEvent.seq same) (Nat.ne_of_lt less))
  · rintro delivery ⟨e,raised⟩
    rcases call_cases env backend holds.filed holds.found holds.loadable delivery with
      ⟨_,_,same⟩ | ⟨_,again⟩ | ⟨after,t,_,_,wrote⟩
    · exact (same.find runId).trans holds.found
    · rw [again] at raised; cases raised
    · rw [wrote] at raised; cases raised
  · intro delivery differs
    rcases call_cases env backend holds.filed holds.found holds.loadable delivery with
      ⟨_,_,same⟩ | ⟨_,again⟩ | ⟨after,t,applied,_,wrote⟩
    · exact absurd ((same.find runId).trans holds.found) differs
    · rw [again] at differs
      exact absurd holds.found differs
    · refine ⟨after,applied,?_⟩
      rw [wrote]; exact find_put_self ..
  · intro last isLast
    obtain ⟨outcome,answers⟩ := holds.answered last isLast
    refine ⟨stored,outcome,fun delivery same => ⟨stored,?_,rfl⟩⟩
    exact call_again env backend holds.filed holds.found holds.loadable delivery (same ▸ answers)

end

def failedEvent : RuntimeEvent :=
  { id := "failed",runId := "run",computerId := "laptop",leaseId := "lease",epoch := 1,seq := 1,kind := .error
    seqPositive := lateEvent.seqPositive }

def leasedRun : TaskRun :=
  { queuedRun with status := .preparing,leaseId := some "lease",leaseExpiresAt := some leaseDuration }

theorem failedEvent_once :
    ∃ stored,(reach (deliver plainEnv .rows) ⟨freshStore.put .runs "run" leasedRun,[]⟩
        [⟨0,failedEvent,none,rfl⟩,⟨1,failedEvent,none,rfl⟩]).docs.find .runs "run" = some stored ∧
      ((reach (deliver plainEnv .rows) ⟨freshStore.put .runs "run" leasedRun,[]⟩
        [(⟨0,failedEvent,none,rfl⟩ : Delivery "run"),⟨1,failedEvent,none,rfl⟩]).commits.map Commit.event).Nodup := by
  have stored : freshStore.find .runs "run" = some queuedRun := by decide
  have own : leasedRun.id = queuedRun.id := rfl
  have filed : RunsFiled (freshStore.put .runs "run" leasedRun) :=
    (runsKept_put (R := fun _ _ => True) (same_refl freshStore) stored own trivial freshStore_filed).1
  obtain ⟨journal,stored,rfl,found,_,once,_⟩ := events_commit_once plainEnv .rows filed (find_put_self ..)
    (show leasedRun.valid = true by decide) [⟨0,failedEvent,none,rfl⟩,⟨1,failedEvent,none,rfl⟩]
  exact ⟨stored,found,once⟩

end Cowork.EventDelivery
