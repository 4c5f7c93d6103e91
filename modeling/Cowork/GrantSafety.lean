import Cowork.Fencing
import Cowork.GrantSteps

/-!
Connector grants under any interleaving of the calls that issue, use and revoke them
with the operations that move their run on: the bound and the count of uses and the end
of a grant, at every moment of every run.
-/
namespace Cowork.GrantSafety
open ControlModels Contracts ControlStore Tables ControlService List Transitions Threads StoreFrames
open RunChanges ServiceSteps Fencing ConnectorDelegation GrantSteps

/-! ## What holds at every moment -/

/-- The stored grants stand under their ids and within their bounds, and no run went back before a grant's epoch. -/
structure Sound (s : Docs) : Prop where
  runs : RunsFiled s
  filed : ∀ id grant, s.find .grants id = some grant → grant.id = id
  bounded : ∀ id grant, s.find .grants id = some grant → grant.useCount ≤ grant.maxUses
  owned : ∀ id grant, s.find .grants id = some grant →
    grant.runId ≠ "" ∧ ∃ run, s.find .runs grant.runId = some run ∧ grant.epoch ≤ run.epoch

def Stored (s : Docs) (grant : ConnectorGrant) : Prop := ∃ now, s.find .grants grant.id = some now ∧ SameTerms grant now

def Knows (s : Docs) : Thread → Prop
  | .granting grant _ actions => grant.useCount = 0 ∧ (∀ action ∈ grant.actions, action ∈ actions) ∧
    grant.runId ≠ "" ∧ ∃ run, s.find .runs grant.runId = some run ∧ grant.epoch ≤ run.epoch
  | .granted grant _ actions => (∀ action ∈ grant.actions, action ∈ actions) ∧ Stored s grant
  | .allowing request grant run => Stored s grant ∧ (Recordable grant → ∀ tick : Tick, wellFormedId tick.auditId = true →
    named 160 tick.auditId = true → (allowEvent tick request grant run).valid = true)
  | .revoking _ _ pending => ∀ grant ∈ pending, Stored s grant ∧ grant.useCount ≤ grant.maxUses
  | .revoked _ _ _ pending => ∀ grant ∈ pending, Stored s grant ∧ grant.useCount ≤ grant.maxUses
  | .ended (.issued grant _) => Stored s grant ∧ Recordable grant
  | _ => True

def Unrepeated (tick : Tick) (s : Docs) (thread : Thread) : Prop :=
  FreshId tick s ∧ match thread with
    | .granting grant _ _ => s.find .grants grant.id = none
    | _ => True

instance (tick : Tick) (s : Docs) : (thread : Thread) → Decidable (Unrepeated tick s thread)
  | .granting grant _ _ => inferInstanceAs (Decidable (FreshId tick s ∧ s.find .grants grant.id = none))
  | .granted _ _ _ | .authorizing _ _ | .allowing _ _ _ | .denying _ _ _ | .revoking _ _ _ | .revoked _ _ _ _ | .ended _ =>
    inferInstanceAs (Decidable (FreshId tick s ∧ True))

theorem Stored.ages {s t : Docs} {grant : ConnectorGrant} (stored : Stored s grant) (ages : Ages s t) : Stored t grant := by
  obtain ⟨old,found,same⟩ := stored
  obtain ⟨after,foundT,aged⟩ := ages.grants _ old found
  exact ⟨after,foundT,sameTerms_trans same aged.1⟩

theorem knows_ages {s t : Docs} {thread : Thread} (ages : Ages s t) (knows : Knows s thread) : Knows t thread := by
  cases thread with
  | granting grant token actions =>
    obtain ⟨unused,listed,named,run,found,epoch⟩ := knows
    obtain ⟨after,foundT,later⟩ := ages.runs _ run found
    exact ⟨unused,listed,named,after,foundT,epoch.trans later.epoch⟩
  | granted grant token actions => exact ⟨knows.1,knows.2.ages ages⟩
  | allowing request grant run => exact ⟨knows.1.ages ages,knows.2⟩
  | revoking _ _ _ | revoked _ _ _ _ => exact fun grant member => ⟨(knows grant member).1.ages ages,(knows grant member).2⟩
  | ended outcome =>
    cases outcome with
    | issued grant token => exact ⟨knows.1.ages ages,knows.2⟩
    | _ => trivial
  | _ => trivial

variable {turns : List (Turn Call Tick Op)}

section
variable (digest : String → String) (backend : Backend)

variable {run : TaskRun} {grant : ConnectorGrant} {s t : Docs} {tick : Tick} {request : Request} {thread next : Thread}
  {id runId : String} {n k : Nat} {pool : Pool Docs Thread}

theorem newGrant_ok {now : Time} {order : Order} (ok : newGrant digest now order run = .ok grant) :
    grant.valid = true ∧ grant.useCount = 0 ∧ grant.runId = run.id ∧ grant.epoch = run.epoch ∧
      ∀ action ∈ grant.actions, action ∈ order.actions := by
  unfold newGrant at ok
  grind [mem_eraseDups]

inductive Started (s : Docs) : Thread → Prop
  | raises {e : Err} : Started s (.ended (.raised e))
  | issues {grant : ConnectorGrant} {token : String} {actions : List String} {run : TaskRun} (checked : grant.valid = true)
      (unused : grant.useCount = 0) (found : s.find .runs grant.runId = some run) (epoch : grant.epoch = run.epoch)
      (listed : ∀ action ∈ grant.actions, action ∈ actions) : Started s (.granting grant token actions)
  | authorizes {request : Request} {snapshot : ConnectorGrant} : Started s (.authorizing request snapshot)
  | revokes {runId : String} {now : Time} {grants : List ConnectorGrant} (listed : (listFor .grants runId s).1 = .ok grants) :
      Started s (.revoking runId now grants)

theorem start_started (filed : RunsFiled s) (call : Call) : Started s (start digest backend call s) := by
  cases call with
  | issue now order =>
    unfold start
    simp only
    split
    · exact .raises
    rename_i run loaded
    split
    · exact .raises
    rename_i grant made
    obtain ⟨_,found,_⟩ := get_ok (Prod.ext loaded rfl)
    obtain ⟨checked,unused,owner,epoch,listed⟩ := newGrant_ok digest made
    refine .issues checked unused ?_ epoch listed
    rw [owner,filed _ _ found]; exact found
  | authorize request =>
    unfold start
    simp only
    split
    · exact .raises
    · exact .authorizes
  | revokeForRun now runId =>
    unfold start
    simp only
    split
    · exact .raises
    · rename_i grants listed
      exact .revokes listed

theorem start_knows (sound : Sound s) (call : Call) : Knows s (start digest backend call s) := by
  have started := start_started digest backend sound.runs call
  generalize start digest backend call s = thread at started
  cases started with
  | raises => trivial
  | issues checked unused found epoch listed =>
    rename_i grant token actions run
    have name : grant.runId ≠ "" := by
      intro empty
      simp only [ConnectorGrant.valid,empty] at checked
      simp [named] at checked
    exact ⟨unused,listed,name,run,found,epoch.le⟩
  | authorizes => trivial
  | revokes listed =>
    intro grant member
    obtain ⟨id,found⟩ := mem_all.mp ((listFor_stored listed).mp member).1
    have own := sound.filed _ _ found
    subst own
    exact ⟨⟨grant,found,sameTerms_refl grant⟩,sound.bounded _ _ found⟩

theorem length_le_intercalate {text separator : String} {texts : List String} (member : text ∈ texts) :
    text.length ≤ (separator.intercalate texts).length := by
  have inside : text.toList ∈ (texts.map String.toList).intersperse separator.toList := by
    have listed : text.toList ∈ texts.map String.toList := mem_map_of_mem member
    generalize texts.map String.toList = lines at listed
    fun_induction List.intersperse separator.toList lines <;> simp_all
    grind
  have part : text.toList.Sublist (separator.intercalate texts).toList := by
    rw [String.toList_intercalate]; exact sublist_flatten_of_mem inside
  have long := part.length_le
  rwa [String.length_toList] at long

theorem recordable_of_issued {actions : List String} (recorded : (grantEvent tick grant actions).valid = true)
    (listed : ∀ action ∈ grant.actions, action ∈ actions) : Recordable grant := by
  intro action member
  have detail : (grant.provider.value ++ ":" ++ ",".intercalate actions).length ≤ 1000 := by
    simp only [SecurityAuditEvent.valid,Bool.and_eq_true] at recorded
    exact of_decide_eq_true recorded.2
  have short := @length_le_intercalate action "," actions (listed action member)
  simp only [String.length_append] at detail ⊢
  omega

theorem use_recorded {now : Time} (passes : Passes now grant run request) (checked : grant.valid = true)
    (checkedRun : run.valid = true) (recordable : Recordable grant) (letters : wellFormedId tick.auditId = true)
    (length : named 160 tick.auditId = true) : (allowEvent tick request (used now grant) run).valid = true := by
  simp only [ConnectorGrant.valid,TaskRun.valid,Bool.and_eq_true,named,decide_eq_true_eq] at checked checkedRun
  have target : grant.id.length ≤ 160 := by omega
  have name : run.id.length ≤ 128 := by omega
  have computer : (orDefault request.computerId run.computerId).length ≤ 128 := by
    grind only [passes.caller,orDefault]
  have detail := recordable request.action passes.action
  simp [allowEvent,SecurityAuditEvent.valid,letters,length,fits,used,target,name,computer]
  exact ⟨by decide,by simpa using detail⟩

theorem sound_same (sound : Sound s) (runs : Same .runs s t) (grants : Same .grants s t) : Sound t := by
  have sameRuns := runs.find
  have sameGrants := grants.find
  obtain ⟨filedRuns,filed,bounded,owned⟩ := sound
  constructor <;> grind only [RunsFiled]

theorem sound_put {s : Docs} (sound : Sound s) {grant : ConnectorGrant} (bound : grant.useCount ≤ grant.maxUses)
    (owned : grant.runId ≠ "" ∧ ∃ run, s.find .runs grant.runId = some run ∧ grant.epoch ≤ run.epoch) :
    Sound (s.put .grants grant.id grant) := by
  have runs : Same .runs s (s.put .grants grant.id grant) := put_collection s _ _ (by decide)
  have sameRuns := runs.find
  have cases : ∀ id other, (s.put .grants grant.id grant).find .grants id = some other →
      id = grant.id ∧ other = grant ∨ s.find .grants id = some other := by
    intro id other found
    by_cases here : id = grant.id
    · exact .inl ⟨here,by simpa [here] using found.symm⟩
    · rw [find_put_id _ _ _ _ _ here] at found
      exact .inr found
  obtain ⟨filedRuns,filed,bounded,allOwned⟩ := sound
  refine ⟨by grind only [RunsFiled],?_,?_,?_⟩ <;> intro id other found <;>
    rcases cases id other found with ⟨rfl,rfl⟩ | old <;> grind only

theorem move_safe (sound : Sound s) (knows : Knows s thread) (unrepeated : Unrepeated tick s thread) :
    Sound (move digest backend tick s thread).1 ∧
      Knows (move digest backend tick s thread).1 (move digest backend tick s thread).2 ∧
      Ages s (move digest backend tick s thread).1 := by
  have runs := move_runs digest backend tick s thread
  have moved := move_moved digest backend tick sound.filed thread
  generalize move digest backend tick s thread = next at runs moved
  obtain ⟨t,thread'⟩ := next
  have still : Same .grants s t → Knows s thread' → Sound t ∧ Knows t thread' ∧ Ages s t := by
    intro same knows'
    have ages := ages_same runs same
    exact ⟨sound_same sound runs same,knows_ages ages knows',ages⟩
  cases moved with
  | saves wrote =>
    rename_i grant token actions
    cases wrote
    obtain ⟨unused,listed,owned⟩ := knows
    exact ⟨sound_put sound (by omega) owned,⟨listed,grant,find_put_self ..,sameTerms_refl grant⟩,
      ages_new unrepeated.2 grant⟩
  | issues same recorded => exact still same ⟨knows.2,recordable_of_issued recorded knows.1⟩
  | counts found foundRun checked checkedRun passes wrote =>
    rename_i request snapshot grant run
    cases wrote
    have own := sound.filed _ _ found
    have owned := sound.owned _ _ found
    rw [← own]
    refine ⟨@sound_put s sound (used tick.now grant) passes.left owned,
      ⟨⟨_,find_put_self ..,sameTerms_refl _⟩,fun recordable tick => ?_⟩,ages_put (fun old there => ?_)⟩
    · exact use_recorded passes checked checkedRun recordable
    · cases (own ▸ found).symm.trans there
      exact ⟨rfl,fun revoked => revoked⟩
  | denies same | authorizes same | returns same | raises same _ _ => exact still same trivial
  | skips same already => exact still same (fun grant member => knows grant (mem_cons_of_mem _ member))
  | revokes unrevoked wrote =>
    rename_i runId now grant rest
    cases wrote
    obtain ⟨⟨stored,found,same⟩,bound⟩ := knows grant (mem_cons_self ..)
    have ages : Ages s (s.put .grants grant.id (withdrawn now grant)) := by
      refine ages_put (fun old there => ⟨?_,fun _ => withdrawn_revoked now grant⟩)
      cases found.symm.trans there
      rw [same]; rfl
    have others : Knows s (.revoked runId now grant rest) :=
      fun other member => knows other (mem_cons_of_mem _ member)
    refine ⟨?_,knows_ages ages others,ages⟩
    have owned := sound.owned _ _ found
    rw [same] at owned
    exact @sound_put s sound (withdrawn now grant) bound owned
  | records same => exact still same knows
  | rests same => cases same; exact still rfl knows

variable (env : Env)

def besides (op : Op) (s : Docs) : Docs := step env backend s op

abbrev moment : Pool Docs Thread → Turn Call Tick Op → Pool Docs Thread :=
  turn (start digest backend) (move digest backend) (besides backend env)

abbrev Fair : Pool Docs Thread → Turn Call Tick Op → Prop := Allowed Unrepeated (fun op s => Admitted s op)

theorem besides_safe (sound : Sound s) {op : Op} (admitted : Admitted s op) :
    Sound (besides backend env op s) ∧ Ages s (besides backend env op s) := by
  obtain ⟨filed,ages⟩ := step_ages env backend sound.runs admitted
  have grants := step_grants env backend s admitted
  have same := grants.find
  have later := fun run after => @Later.epoch run after
  have ageing := ages.runs
  obtain ⟨_,named,bounded,owned⟩ := sound
  refine ⟨⟨filed,?_,?_,?_⟩,ages⟩ <;> unfold besides <;> grind only

theorem grants_safe : Safe (start digest backend) (move digest backend) (besides backend env) Sound
    (fun s _ thread => Knows s thread) Ages Unrepeated (fun op s => Admitted s op) where
  begins _ _ call sound := start_knows digest backend sound call
  moves _ _ _ _ sound knows unrepeated := move_safe digest backend sound knows unrepeated
  outsides _ _ sound admitted := besides_safe backend env sound admitted
  stable _ _ _ _ ages knows := knows_ages ages knows

/-! ## Revocation -/

def RevokedIn (s : Docs) (id : String) : Prop := ∃ grant, s.find .grants id = some grant ∧ grant.revokedAt ≠ none

theorem RevokedIn.ages (revoked : RevokedIn s id) (ages : Ages s t) : RevokedIn t id := by
  obtain ⟨grant,found,at_⟩ := revoked
  obtain ⟨after,foundT,aged⟩ := ages.grants id grant found
  exact ⟨after,foundT,aged.2 at_⟩

/-- A `revoke_for_run` that began after the first `n` calls still has the grant to revoke, or it is revoked. -/
def WillRevoke (id runId : String) (n : Nat) (s : Docs) (k : Nat) (thread : Thread) : Prop :=
  n ≤ k → match thread with
    | .revoking run _ pending => run = runId → (∃ grant ∈ pending, grant.id = id ∧ grant.revokedAt = none) ∨ RevokedIn s id
    | .revoked run _ _ pending => run = runId → (∃ grant ∈ pending, grant.id = id ∧ grant.revokedAt = none) ∨ RevokedIn s id
    | .ended (.revoked run) => run = runId → RevokedIn s id
    | _ => True

def GrantOf (id runId : String) (s : Docs) : Prop := ∃ grant, s.find .grants id = some grant ∧ grant.runId = runId

theorem GrantOf.ages (has : GrantOf id runId s) (ages : Ages s t) : GrantOf id runId t := by
  obtain ⟨grant,found,owner⟩ := has
  obtain ⟨after,foundT,same,_⟩ := ages.grants id grant found
  exact ⟨after,foundT,by rw [same]; exact owner⟩

theorem willRevoke_ages (ages : Ages s t) (will : WillRevoke id runId n s k thread) : WillRevoke id runId n t k thread := by
  intro later
  have before := will later
  cases thread with
  | revoking _ _ _ | revoked _ _ _ _ => exact fun same => (before same).imp_right (fun revoked => revoked.ages ages)
  | ended outcome =>
    cases outcome with
    | revoked run => exact fun same => (before same).ages ages
    | _ => trivial
  | _ => trivial

theorem start_willRevoke (sound : Sound s) (has : GrantOf id runId s) (call : Call) :
    WillRevoke id runId n s k (start digest backend call s) := by
  have started := start_started digest backend sound.runs call
  generalize start digest backend call s = thread at started
  intro _
  cases started with
  | revokes listed =>
    rintro rfl
    obtain ⟨grant,found,rfl⟩ := has
    have parent : parentId .grants grant = some grant.runId := if_neg (sound.owned id grant found).1
    grind only [listFor_stored,mem_all,RevokedIn,cases Sound,listFor]
  | _ => trivial

theorem move_willRevoke (sound : Sound s) (knows : Knows s thread) (unrepeated : Unrepeated tick s thread)
    (will : WillRevoke id runId n s k thread) :
    WillRevoke id runId n (move digest backend tick s thread).1 k (move digest backend tick s thread).2 := by
  have ages := (move_safe digest backend sound knows unrepeated).2.2
  have moved := move_moved digest backend tick sound.filed thread
  generalize move digest backend tick s thread = next at ages moved
  obtain ⟨t,thread'⟩ := next
  intro later
  have before := will later
  cases moved with
  | skips same already =>
    have onward := fun revoked : RevokedIn s id => revoked.ages ages
    grind only [= mem_cons]
  | revokes open_ wrote =>
    have onward := fun revoked : RevokedIn s id => revoked.ages ages
    grind only [find_put_self,RevokedIn,withdrawn_revoked,mem_cons]
  | records same => exact fun here => (before here).imp_right (fun revoked => revoked.ages ages)
  | returns same =>
    intro here
    rcases before here with ⟨grant,member,_⟩ | revoked
    · cases member
    · exact revoked.ages ages
  | rests same => cases same; exact before
  | _ => trivial

theorem revocation_safe (id runId : String) (n : Nat) : Safe (start digest backend) (move digest backend) (besides backend env)
    (fun s => Sound s ∧ GrantOf id runId s) (fun s k thread => Knows s thread ∧ WillRevoke id runId n s k thread) Ages
    Unrepeated (fun op s => Admitted s op) where
  begins _ _ call holds := ⟨start_knows digest backend holds.1 call,start_willRevoke digest backend holds.1 holds.2 call⟩
  moves _ _ _ _ holds own unrepeated := by
    obtain ⟨sound,knows,ages⟩ := move_safe digest backend holds.1 own.1 unrepeated
    exact ⟨⟨sound,holds.2.ages ages⟩,⟨knows,move_willRevoke digest backend holds.1 own.1 unrepeated own.2⟩,ages⟩
  outsides _ _ holds admitted := by
    obtain ⟨sound,ages⟩ := besides_safe backend env holds.1 admitted
    exact ⟨⟨sound,holds.2.ages ages⟩,ages⟩
  stable _ _ _ _ ages own := ⟨knows_ages ages own.1,willRevoke_ages ages own.2⟩

/-! ## Counting -/

/-- An `authorize` of the grant that has succeeded, or only has its audit record left to write. -/
def succeeded (id : String) : Thread → Bool
  | .allowing _ grant _ => grant.id = id
  | .ended (.authorized grant) => grant.id = id
  | _ => false

/-- The grants that a `revoke_for_run` has listed and not yet seen to. -/
def pendingOf : Thread → List ConnectorGrant
  | .revoking _ _ pending => pending
  | .revoked _ _ _ pending => pending
  | _ => []

/-- No `authorize` of the grant is counted while a `revoke_for_run` has it pending. -/
def Apart (id : String) (pool : Pool Docs Thread) : Turn Call Tick Op → Prop
  | .advance k _ => ∀ request snapshot, pool.threads[k]? = some (.authorizing request snapshot) → request.grantId = id →
    ∀ thread ∈ pool.threads, ∀ grant ∈ pendingOf thread, grant.id ≠ id
  | _ => True

structure Tally (id : String) (pool : Pool Docs Thread) : Prop where
  counted : ∀ grant, pool.shared.find .grants id = some grant → Recordable grant →
    grant.useCount = pool.threads.countP (succeeded id)
  unissued : pool.shared.find .grants id = none → pool.threads.countP (succeeded id) = 0
  copies : ∀ thread ∈ pool.threads, ∀ copy ∈ pendingOf thread, copy.id = id → copy.revokedAt = none →
    ∀ grant, pool.shared.find .grants id = some grant → grant.useCount = copy.useCount

theorem countP_set {threads : List Thread} (found : threads[k]? = some thread) (p : Thread → Bool) (next : Thread) :
    (threads.set k next).countP p + (if p thread then 1 else 0) = threads.countP p + (if p next then 1 else 0) := by
  grind

theorem countP_kept {threads : List Thread} {k : Nat} {thread next : Thread} (found : threads[k]? = some thread)
    {p : Thread → Bool} (same : p next = p thread) : (threads.set k next).countP p = threads.countP p := by
  have change := countP_set found p next
  rw [same] at change
  omega

theorem countP_more {threads : List Thread} (found : threads[k]? = some thread) {p : Thread → Bool}
    (before : p thread = false) (after : p next = true) : (threads.set k next).countP p = threads.countP p + 1 := by
  have change := countP_set found p next
  simpa [before,after] using change

theorem started_idle (started : Started s thread) (id : String) : succeeded id thread = false := by
  cases started <;> rfl

theorem begin_tally (sound : Sound pool.shared) (tally : Tally id pool) (call : Call) :
    Tally id (moment digest backend env pool (.begin call)) := by
  have started := start_started digest backend sound.runs call
  have count : (moment digest backend env pool (.begin call)).threads.countP (succeeded id) =
      pool.threads.countP (succeeded id) := by simp [turn,started_idle started id]
  refine ⟨fun grant found recordable => count ▸ tally.counted grant found recordable,
    fun unissued => count ▸ tally.unissued unissued,?_⟩
  intro thread member copy pending own unrevoked grant found
  rcases mem_append.mp member with old | new
  · exact tally.copies thread old copy pending own unrevoked grant found
  · rw [mem_singleton.mp new] at pending
    generalize start digest backend call pool.shared = thread at started pending
    cases started with
    | revokes listed =>
      obtain ⟨other,stored⟩ := mem_all.mp ((listFor_stored listed).mp pending).1
      have name := sound.filed _ _ stored
      rw [← name,own,show pool.shared.find .grants id = some grant from found] at stored
      cases stored; rfl
    | _ => cases pending

theorem tally_quiet (tally : Tally id pool) (found : pool.threads[k]? = some thread)
    (same : t.find .grants id = pool.shared.find .grants id) (calls : succeeded id next = succeeded id thread)
    (fewer : ∀ copy ∈ pendingOf next, copy ∈ pendingOf thread) : Tally id ⟨t,pool.threads.set k next⟩ := by
  have count := countP_kept found calls
  have before := mem_of_getElem? found
  have either := @mem_or_eq_of_mem_set _ pool.threads k
  obtain ⟨counted,unissued,copies⟩ := tally
  constructor <;> grind only

theorem tally_write {after : ConnectorGrant} (wrote : t = pool.shared.put .grants id after)
    (counted : Recordable after → after.useCount = (pool.threads.set k next).countP (succeeded id))
    (copies : ∀ thread ∈ pool.threads.set k next, ∀ copy ∈ pendingOf thread, copy.id = id → copy.revokedAt = none →
    after.useCount = copy.useCount) : Tally id ⟨t,pool.threads.set k next⟩ := by
  have stored : t.find .grants id = some after := by
    rw [wrote]; exact find_put_self ..
  constructor <;> grind only

theorem pending_stored (knows : Knows s thread) {copy : ConnectorGrant} (pending : copy ∈ pendingOf thread) :
    Stored s copy := by
  cases thread with
  | revoking runId now pendings | revoked runId now first pendings => exact (knows copy pending).1
  | _ => cases pending

section
variable (holds : Holds Sound (fun s _ thread => Knows s thread) pool) (tally : Tally id pool)
include holds tally

theorem advance_tally (found : pool.threads[k]? = some thread) (unrepeated : Unrepeated tick pool.shared thread)
    (apart : Apart id pool (.advance k tick)) : Tally id ⟨(move digest backend tick pool.shared thread).1,
    pool.threads.set k (move digest backend tick pool.shared thread).2⟩ := by
  have sound := holds.state
  have knows := holds.each k thread found
  have member := mem_of_getElem? found
  have moved := move_moved digest backend tick sound.filed thread
  generalize move digest backend tick pool.shared thread = result at moved
  obtain ⟨t,next⟩ := result
  have elsewhere : ∀ {other : String} {grant : ConnectorGrant}, t = pool.shared.put .grants other grant → id ≠ other →
      t.find .grants id = pool.shared.find .grants id := by
    rintro other grant rfl differs; exact find_put_id _ _ _ _ _ differs
  have quiet : Same .grants pool.shared t → succeeded id next = succeeded id thread →
      (∀ copy ∈ pendingOf next, copy ∈ pendingOf thread) → Tally id ⟨t,pool.threads.set k next⟩ :=
    fun same calls fewer => tally_quiet tally found (same.find id) calls fewer
  show Tally id ⟨t,pool.threads.set k next⟩
  cases moved with
  | saves wrote =>
    rename_i grant token actions
    by_cases here : id = grant.id
    · -- a new grant: nobody has used it, and no revocation has listed it
      subst here
      have unissued := unrepeated.2
      refine tally_write wrote (fun _ => ?_) (fun other inside copy pending own _ => ?_)
      · rw [@countP_kept _ _ _ (.granted grant token actions) found (succeeded grant.id) rfl,tally.unissued unissued]
        exact knows.1
      · rcases mem_or_eq_of_mem_set inside with old | rfl
        · obtain ⟨j,there⟩ := List.getElem?_of_mem old
          obtain ⟨_,present,_⟩ := pending_stored (holds.each j other there) pending
          rw [own,unissued] at present; cases present
        · cases pending
    · exact tally_quiet tally found (elsewhere wrote here) rfl (by simp [pendingOf])
  | issues same _ | denies same | authorizes same | returns same => exact quiet same rfl (by simp [pendingOf])
  | @counts request snapshot grant run stored _ _ _ _ wrote =>
    by_cases here : id = request.grantId
    · -- one more use and one more call; no revocation has an older copy
      subst here
      have own := sound.filed _ _ stored
      refine tally_write wrote (fun recordable => ?_) (fun other inside copy pending name _ => ?_)
      · grind only [succeeded,used,countP_more,cases Tally,Recordable]
      · rcases mem_or_eq_of_mem_set inside with old | rfl
        · exact absurd name (apart request snapshot found rfl other old copy pending)
        · cases pending
    grind only [sound.filed,succeeded,used,tally_quiet,pendingOf]
  | skips same _ => exact quiet same rfl (fun _ inside => mem_cons_of_mem _ inside)
  | revokes unrevoked wrote =>
    rename_i runId now grant rest
    by_cases here : id = grant.id
    · -- the copy that is written back has the count of the stored grant
      subst here
      obtain ⟨⟨old,stored,same⟩,_⟩ := knows grant (mem_cons_self ..)
      have current := tally.copies _ member grant (mem_cons_self ..) rfl unrevoked old stored
      refine tally_write wrote (fun recordable => ?_) (fun other inside copy pending own open_ => ?_)
      · grind only [countP_kept,withdrawn,succeeded,cases Tally,SameTerms,Recordable]
      grind only [mem_or_eq_of_mem_set,mem_cons_of_mem,cases Tally,withdrawn,pendingOf]
    · exact tally_quiet tally found (elsewhere wrote here) rfl (fun _ inside => mem_cons_of_mem _ inside)
  | records same => exact quiet same rfl (fun _ inside => inside)
  | raises same going unrecorded =>
    -- a counted call raises only when its audit record does not fit
    cases thread with
    | allowing request grant run =>
      by_cases here : grant.id = id
      · obtain ⟨⟨stored,present,terms⟩,records⟩ := knows
        have sameGrants := same.find id
        have either := @mem_or_eq_of_mem_set _ pool.threads k
        have valid := fun recordable => records recordable tick unrepeated.1.letters unrepeated.1.length
        obtain ⟨counted,unissued,copies⟩ := tally
        have fresh := unrepeated.1.unused
        constructor <;> grind only [terms.recordable,pendingOf,not_mem_nil]
      · exact quiet same (decide_eq_false here).symm (by simp [pendingOf])
    | ended outcome => exact absurd rfl (going outcome)
    | _ => exact quiet same rfl (by simp [pendingOf])
  | rests same => cases same; exact quiet rfl rfl (fun _ inside => inside)

theorem turn_tally (next : Turn Call Tick Op) (fair : Fair pool next) (apart : Apart id pool next) :
    Tally id (moment digest backend env pool next) := by
  cases next with
  | begin call => exact begin_tally digest backend env holds.state tally call
  | advance k tick =>
    cases found : pool.threads[k]? with
    | none => rwa [moment,turn_idle _ _ _ found]
    | some thread =>
      rw [moment,turn_moves _ _ _ found]
      exact advance_tally digest backend holds tally found (fair thread found) apart
  | outside op =>
    have same := (step_grants env backend pool.shared fair).find id
    refine ⟨fun grant found => tally.counted grant (same ▸ found),fun absent => tally.unissued (same ▸ absent),?_⟩
    intro thread member copy pending own unrevoked grant found
    exact tally.copies thread member copy pending own unrevoked grant (same ▸ found)

theorem reach_tally (fair : Permitted (moment digest backend env) Fair pool turns)
    (apart : Permitted (moment digest backend env) (Apart id) pool turns) :
    Tally id (reach (moment digest backend env) pool turns) := by
  induction turns generalizing pool with
  | nil => exact tally
  | cons next rest ih =>
    exact ih ((grants_safe digest backend env).turn holds next fair.1)
      (turn_tally digest backend env holds tally next fair.1 apart.1) fair.2 apart.2

end

/-! ## Authorization -/

/-- `update_grant` lets the request pass in this state, at some time. -/
def Authorizes (s : Docs) (request : Request) : Prop :=
  ∃ now result t, updateGrantWith backend request.grantId (authorizeGrant digest now request) s = (.ok result,t)

theorem authorizes_passes (sound : Sound s) (passed : Authorizes digest backend s request) :
    ∃ now grant run, s.find .grants request.grantId = some grant ∧ s.find .runs grant.runId = some run ∧
      Passes now grant run request := by
  obtain ⟨now,⟨after,run⟩,t,ran⟩ := passed
  obtain ⟨grant,found,foundRun,_,_,passes,_⟩ := authorize_counts sound.filed ran
  exact ⟨now,grant,run,found,foundRun,passes⟩

theorem scope_supplied {action : String} {requested : List (String × String)}
    (ok : validateConstraints grant action requested = .ok ()) (bounded : grant.resourceConstraints ≠ []) :
    ∃ entry ∈ grant.resourceConstraints, requested.lookup entry.1 = some entry.2 := by
  have names : constraintNames grant ≠ [] := by simpa [constraintNames] using bounded
  have required : ∃ name ∈ requiredNames grant action, name ∈ constraintNames grant := by
    unfold requiredNames
    simp only
    split
    · obtain ⟨name,member⟩ := exists_mem_of_ne_nil _ names
      exact ⟨name,member,member⟩
    · rename_i chosen
      obtain ⟨name,member⟩ := exists_mem_of_ne_nil _ chosen
      exact ⟨name,member,by simpa using (mem_filter.mp member).2⟩
  obtain ⟨name,needed,member⟩ := required
  have supply : supplied grant requested name = true := by grind only [validateConstraints,all_eq_true]
  have present : (grant.resourceConstraints.lookup name).isSome = true := by
    rw [lookup_isSome_iff]
    obtain ⟨entry,inside,rfl⟩ := mem_map.mp member
    exact ⟨entry,inside,by simp⟩
  obtain ⟨allowed,found⟩ := Option.isSome_iff_exists.mp present
  unfold supplied at supply
  rw [found] at supply
  obtain ⟨_,_,split,_⟩ := lookup_eq_some_iff.mp found
  exact ⟨(name,allowed),by rw [split]; simp,of_decide_eq_true supply⟩

theorem authorizes_scope (sound : Sound s) (passed : Authorizes digest backend s request) :
    ∃ grant, s.find .grants request.grantId = some grant ∧ (grant.resourceConstraints = [] ∨
      ∃ entry ∈ grant.resourceConstraints, request.constraints.lookup entry.1 = some entry.2) := by
  obtain ⟨now,grant,run,found,_,passes⟩ := authorizes_passes digest backend sound passed
  refine ⟨grant,found,or_iff_not_imp_left.mpr (fun bounded => ?_)⟩
  exact scope_supplied passes.scope bounded

theorem revoked_refused (sound : Sound s) (revoked : RevokedIn s request.grantId) : ¬Authorizes digest backend s request := by
  intro passed
  obtain ⟨now,grant,run,found,_,passes⟩ := authorizes_passes digest backend sound passed
  have unrevoked := passes.unrevoked
  grind only [RevokedIn]

def Outdated (s : Docs) (id : String) : Prop := ∃ grant run, s.find .grants id = some grant ∧
  s.find .runs grant.runId = some run ∧ (grant.epoch < run.epoch ∨ run.status.terminal = true)

theorem outdated_refused (sound : Sound s) (outdated : Outdated s request.grantId) :
    ¬Authorizes digest backend s request := by
  intro passed
  obtain ⟨now,grant,run,found,foundRun,passes⟩ := authorizes_passes digest backend sound passed
  have epoch := passes.epoch
  have going := passes.going
  grind only [Outdated]

theorem Outdated.ages (sound : Sound s) (outdated : Outdated s id) (ages : Ages s t) : Outdated t id := by
  obtain ⟨grant,run,found,foundRun,finished⟩ := outdated
  obtain ⟨after,foundT,same,_⟩ := ages.grants id grant found
  grind only [Later,Outdated,cases Sound,cases Ages,SameTerms]

theorem outdated_of_change (sound : Sound s) (ages : Ages s t) (found : s.find .grants id = some grant)
    {after : TaskRun} (foundRun : s.find .runs grant.runId = some run)
    (foundAfter : t.find .runs grant.runId = some after) (changed : after.epoch ≠ run.epoch ∨
    after.computerId ≠ run.computerId ∨ after.status.terminal ≠ run.status.terminal) : Outdated t id := by
  obtain ⟨grant',foundT,same,_⟩ := ages.grants id grant found
  obtain ⟨run',there,later⟩ := ages.runs _ run foundRun
  obtain ⟨_,_,foundRun',epoch⟩ := sound.owned id grant found
  refine ⟨grant',after,foundT,by rw [same]; exact foundAfter,?_⟩
  rw [same]
  grind only [Later]

/-- `issue` has returned the grant. -/
def Issued (id : String) (pool : Pool Docs Thread) : Prop :=
  ∃ grant token, .ended (.issued grant token) ∈ pool.threads ∧ grant.id = id

theorem empty_holds (filed : RunsFiled s) (noGrants : ∀ id, s.find .grants id = none) :
    Holds Sound (fun s _ thread => Knows s thread) ⟨s,[]⟩ := by
  refine ⟨⟨filed,?_,?_,?_⟩,fun k thread found => by simp at found⟩ <;> intro id grant found <;>
    rw [noGrants id] at found <;> cases found

theorem returned_revocation (holds : Holds Sound (fun s _ thread => Knows s thread) pool)
    (fair : Permitted (moment digest backend env) Fair pool turns)
    (found : pool.shared.find .grants id = some grant) (later : pool.threads.length ≤ k)
    (returned : (reach (moment digest backend env) pool turns).threads[k]? = some (.ended (.revoked grant.runId))) :
    RevokedIn (reach (moment digest backend env) pool turns).shared id := by
  have begun : Holds (fun s => Sound s ∧ GrantOf id grant.runId s)
      (fun s k thread => Knows s thread ∧ WillRevoke id grant.runId pool.threads.length s k thread) pool := by
    refine ⟨⟨holds.state,grant,found,rfl⟩,fun j thread there => ⟨holds.each j thread there,fun after => ?_⟩⟩
    exact absurd (List.getElem?_eq_some_iff.mp there).1 (by omega)
  have ended := (revocation_safe digest backend env id grant.runId pool.threads.length).reach begun fair
  exact (ended.each k _ returned).2 later rfl

/-- No grant is used more often than it allows or, but for uses counted while a revocation had it pending, than it was
    authorized; a request that passes meets a constraint; a grant ends for good with its revocation or execution. -/
theorem grants_bounded_and_final {s : Docs} (filed : RunsFiled s) (noGrants : ∀ id, s.find .grants id = none)
    {turns : List (Turn Call Tick Op)} (fair : Permitted (moment digest backend env) Fair ⟨s,[]⟩ turns) :
    ∃ pool, reach (moment digest backend env) ⟨s,[]⟩ turns = pool ∧
      (∀ id grant, pool.shared.find .grants id = some grant → grant.useCount ≤ grant.maxUses) ∧
      (∀ id, Issued id pool → Permitted (moment digest backend env) (Apart id) ⟨s,[]⟩ turns →
        ∃ grant, pool.shared.find .grants id = some grant ∧ grant.useCount = pool.threads.countP (succeeded id)) ∧
      (∀ request, Authorizes digest backend pool.shared request →
        ∃ grant, pool.shared.find .grants request.grantId = some grant ∧ (grant.resourceConstraints = [] ∨
          ∃ entry ∈ grant.resourceConstraints, request.constraints.lookup entry.1 = some entry.2)) ∧
      ∀ more rest, Permitted (moment digest backend env) Fair pool more →
        Permitted (moment digest backend env) Fair (reach (moment digest backend env) pool more) rest →
        ∀ id grant, pool.shared.find .grants id = some grant →
          (∃ k, pool.threads.length ≤ k ∧
              (reach (moment digest backend env) pool more).threads[k]? = some (.ended (.revoked grant.runId))) ∨
            (∃ run after, pool.shared.find .runs grant.runId = some run ∧
              (reach (moment digest backend env) pool more).shared.find .runs grant.runId = some after ∧
              (after.epoch ≠ run.epoch ∨ after.computerId ≠ run.computerId ∨
                after.status.terminal ≠ run.status.terminal)) →
          ∀ request, request.grantId = id → ¬Authorizes digest backend
            (reach (moment digest backend env) (reach (moment digest backend env) pool more) rest).shared request := by
  have safe := grants_safe digest backend env
  have holds := safe.reach (empty_holds filed noGrants) fair
  refine ⟨_,rfl,holds.state.bounded,fun id issued apart => ?_,
    fun request passed => authorizes_scope digest backend holds.state passed,?_⟩
  · have start : Tally id ⟨s,[]⟩ :=
      ⟨fun grant found => (by cases (noGrants id).symm.trans found),fun _ => rfl,fun thread none => (by cases none)⟩
    have tally := reach_tally digest backend env (empty_holds filed noGrants) start fair apart
    obtain ⟨grant,token,member,rfl⟩ := issued
    obtain ⟨k,there⟩ := List.getElem?_of_mem member
    obtain ⟨⟨stored,found,same⟩,recordable⟩ := holds.each k _ there
    exact ⟨stored,found,tally.counted stored found (same.recordable.mp recordable)⟩
  · rintro more rest fairMore fairRest id grant found finished request rfl
    have holdsMore := safe.reach holds fairMore
    have holdsRest := safe.reach holdsMore fairRest
    have ages := safe.changes ages_refl ages_trans holds fairMore
    have ages' := safe.changes ages_refl ages_trans holdsMore fairRest
    rcases finished with ⟨k,later,returned⟩ | ⟨run,after,foundRun,foundAfter,changed⟩
    · have revoked := returned_revocation digest backend env holds fairMore found later returned
      exact revoked_refused digest backend holdsRest.state (revoked.ages ages')
    · have outdated := outdated_of_change holds.state ages found foundRun foundAfter changed
      exact outdated_refused digest backend holdsRest.state (outdated.ages holdsMore.state ages')

end

def plainDigest (_ : String) : String := "0123456789abcdef0123456789abcdef0123456789abcdef0123456789abcdef"
def orderOf (grantId : String) : Order :=
  { runId := "run",provider := "github",connectionName := "main",actions := ["read_source"],grantId,token := "secret" }
def requestOf (grantId : String) : Request := { grantId,token := "secret",action := "read_source" }
abbrev plainMoment : Pool Docs Thread → Turn Call Tick Op → Pool Docs Thread := moment plainDigest .files plainEnv
def grantOf (grantId : String) (now : Time) : ConnectorGrant :=
  { id := grantId,runId := "run",computerId := "laptop",provider := .github,connectionName := "main"
    actions := ["read_source"],tokenHash := plainDigest "secret",expiresAt := now + minutes 15,createdAt := now }
abbrev FairCalls : Pool Docs Thread → Turn Call Tick Op → Prop := Allowed Unrepeated (fun _ _ => False)

theorem fair_of_calls {pool : Pool Docs Thread}
    (fair : Permitted plainMoment FairCalls pool turns) : Permitted plainMoment Fair pool turns := by
  refine permitted_mono (fun pool next allowed => ?_) fair
  cases next with
  | outside op => exact allowed.elim
  | _ => exact allowed

def usedOnce : List (Turn Call Tick Op) :=
  [.begin (.issue 0 (orderOf "grant-1")),.advance 0 ⟨0,"audit-1"⟩,.advance 0 ⟨0,"audit-2"⟩,
    .begin (.authorize (requestOf "grant-1")),.advance 1 ⟨1,"audit-3"⟩,.advance 1 ⟨1,"audit-4"⟩]
def revocation : List (Turn Call Tick Op) :=
  [.begin (.revokeForRun 2 "run"),.advance 2 ⟨2,"audit-5"⟩,.advance 2 ⟨2,"audit-6"⟩,.advance 2 ⟨2,"audit-7"⟩]
abbrev fresh : Pool Docs Thread := ⟨freshStore,[]⟩

theorem fresh_noGrants (id : String) : fresh.shared.find .grants id = none := rfl

theorem usedOnce_then_refused :
    (∃ grant, (reach plainMoment fresh usedOnce).shared.find .grants "grant-1" = some grant ∧ grant.useCount = 1) ∧
      ∀ request, request.grantId = "grant-1" → ¬Authorizes plainDigest .files
        (reach plainMoment (reach plainMoment fresh usedOnce) revocation).shared request := by
  have fairUse : Permitted plainMoment FairCalls fresh usedOnce := by decide
  have fairRevocation : Permitted plainMoment FairCalls (reach plainMoment fresh usedOnce) revocation := by decide
  have returned : (reach plainMoment (reach plainMoment fresh usedOnce) revocation).threads[2]? =
      some (.ended (.revoked "run")) := by decide
  have found : (reach plainMoment fresh usedOnce).shared.find .grants "grant-1" = some (used 1 (grantOf "grant-1" 0)) := by
    decide
  obtain ⟨_,rfl,_,_,_,final⟩ := grants_bounded_and_final plainDigest .files plainEnv freshStore_filed fresh_noGrants
    (fair_of_calls fairUse)
  have began : (reach plainMoment fresh usedOnce).threads.length ≤ 2 := by decide
  have refused := final revocation [] (fair_of_calls fairRevocation) trivial "grant-1" _ found (.inl ⟨2,began,returned⟩)
  rw [reach_nil] at refused
  exact ⟨⟨_,found,rfl⟩,refused⟩

/-- A second grant is issued after a revocation has listed the grants of the run and before it returns. -/
def issueMeanwhile : List (Turn Call Tick Op) :=
  [.begin (.issue 0 (orderOf "grant-1")),.advance 0 ⟨0,"audit-1"⟩,.advance 0 ⟨0,"audit-2"⟩,
    .begin (.issue 1 (orderOf "grant-2")),.begin (.revokeForRun 1 "run"),.advance 1 ⟨1,"audit-3"⟩,.advance 1 ⟨1,"audit-4"⟩]
def revocationEnds : List (Turn Call Tick Op) :=
  [.advance 2 ⟨2,"audit-5"⟩,.advance 2 ⟨2,"audit-6"⟩,.advance 2 ⟨2,"audit-7"⟩]

/-- A grant of the run that was issued before `revoke_for_run` returned is still good afterwards. -/
theorem grant_issued_meanwhile_survives :
    Permitted plainMoment FairCalls fresh (issueMeanwhile ++ revocationEnds) ∧
      Issued "grant-2" (reach plainMoment fresh issueMeanwhile) ∧
      (reach plainMoment fresh issueMeanwhile).shared.find .grants "grant-2" = some (grantOf "grant-2" 1) ∧
      (reach plainMoment fresh (issueMeanwhile ++ revocationEnds)).threads[2]? = some (.ended (.revoked "run")) ∧
      Authorizes plainDigest .files (reach plainMoment fresh (issueMeanwhile ++ revocationEnds)).shared
        (requestOf "grant-2") := by
  have issued : .ended (.issued (grantOf "grant-2" 1) "secret") ∈ (reach plainMoment fresh issueMeanwhile).threads := by decide
  have passes : (updateGrantWith .files "grant-2" (authorizeGrant plainDigest 3 (requestOf "grant-2"))
      (reach plainMoment fresh (issueMeanwhile ++ revocationEnds)).shared).1.toBool = true := by decide
  rcases ran : updateGrantWith .files "grant-2" (authorizeGrant plainDigest 3 (requestOf "grant-2"))
      (reach plainMoment fresh (issueMeanwhile ++ revocationEnds)).shared with ⟨r,t⟩
  rw [ran] at passes
  cases r with
  | error e => cases passes
  | ok result => exact ⟨by decide,⟨_,_,issued,rfl⟩,by decide,by decide,3,result,t,ran⟩

end Cowork.GrantSafety
