import Cowork.RuntimeWorker
import Cowork.CommandOrder

/-!
A worker and the control plane over any interleaving (`commands_run_once`). The control
plane delivers a command again when its claim has run out, so the worker may hold it
twice, in its deferred list and in a list that one of its threads goes through:
`Careful` is about such copies.
-/
namespace Cowork.CommandDelivery
open Json ControlModels ControlStore ControlService Transitions Option RunChanges CommandQueue RuntimeWorker
open List hiding choose

/-! ## Copies of commands -/

/-- The copies that the thread of `_execute` has still to look at. -/
def mainHolds : Main → List RuntimeCommand
  | .claiming snapshot => snapshot
  | .taking snapshot claimed => snapshot ++ claimed
  | .choosing selected rest => selected.toList ++ rest
  | .answering selected _ _ _ rest => selected.toList ++ rest
  | _ => []

def routerHolds : Routing → List RuntimeCommand
  | .claiming snapshot => snapshot
  | .taking snapshot claimed => snapshot ++ claimed
  | .routing rest => rest
  | .answering _ _ _ _ rest => rest
  | _ => []

def held {backend : Backend} (w : World backend) : List RuntimeCommand :=
  w.pending ++ mainHolds w.main ++ w.routers.flatMap (fun thread => routerHolds thread.phase)

def isTask (c : RuntimeCommand) : Bool := c.kind = .start || c.kind = .release

/-- The lease is over for the thread of `_execute`. -/
def finished : Main → Bool
  | .ended => true
  | .failed => true
  | _ => false

def closing : Main → Bool
  | .releasing _ => true
  | .ended => true
  | _ => false

section
variable {backend : Backend} (lease : Lease)

def Acked (s : State backend) (id : String) : Prop := ∃ d, (laws backend).command s id = some d ∧ d.ackedAt ≠ none

def Mine (d : RuntimeCommand) : Prop := parentId .commands d = some lease.runId ∧ d.epoch = lease.epoch

/-! ## The condition -/

def Alone (id : String) (w : World backend) : Prop := ∀ c ∈ held w, c.id ≠ id

def Spares (command : RuntimeCommand) (w : World backend) : Prop :=
  (remembered w command).isSome = true ∨ w.completed.length < maxCompletedResults ∨
    ∀ entry ∈ w.completed.head?, ((laws backend).command w.server entry.1).any (fun d => d.ackedAt ≠ none) = true ∧
      Alone entry.1 w

def LastTask (command : RuntimeCommand) (w : World backend) : Prop :=
  ∀ d ∈ (laws backend).listing w.server lease.runId, isTask d = true → d.epoch = lease.epoch → 0 < d.deliveryCount →
    d.id = command.id ∨ d.ackedAt ≠ none

/-- A copy of the command does no harm to the thread of `_execute`: it is not the one started and not yet
    acknowledged, and no start or release once the workspace is released. -/
def HarmlessTo (c : RuntimeCommand) : Main → Prop
  | .started command _ => c.id ≠ command.id
  | .releasing _ => isTask c = false
  | .ended => isTask c = false
  | _ => True

/-- A claim of a routing thread does no harm to the thread of `_execute`. -/
def Harmless (choice : Choice) (w : World backend) : Prop :=
  ∀ c ∈ handedOut (laws backend) choice.now lease.epoch lease.runId w.server, HarmlessTo c w.main

/-- The condition on a step of `_execute`. -/
def CarefulMain (w : World backend) : Main → Prop
  | .starting command => Alone command.id w
  | .choosing none (command :: _) => command.kind = .operation → Spares command w
  | .choosing (some command) [] => command.kind = .release → LastTask lease command w
  | _ => True

def CarefulRouter (choice : Choice) (w : World backend) : Routing → Prop
  | .claiming _ => Harmless lease choice w
  | .routing (command :: _) => command.kind = .operation → Spares command w
  | _ => True

def Careful (w : World backend) : Action → Prop
  | .queue _ _ commandId _ _ _ => (laws backend).command w.server commandId = none
  | .main _ => CarefulMain lease w w.main
  | .router k choice => ∀ thread ∈ w.routers[k]?, CarefulRouter lease choice w thread.phase

/-! ## The server -/

structure Later (s t : State backend) : Prop where
  good : (laws backend).good t
  kept : ∀ id d, (laws backend).command s id = some d →
    ∃ d', (laws backend).command t id = some d' ∧ asQueued d' = asQueued d ∧ (d.ackedAt ≠ none → d'.ackedAt ≠ none)

def Copy (s : State backend) (c : RuntimeCommand) : Prop := ∃ d, (laws backend).command s c.id = some d ∧ asQueued d = asQueued c

theorem Later.refl {s : State backend} (good : (laws backend).good s) : Later s s :=
  ⟨good,fun _ d found => ⟨d,found,rfl,fun acked => acked⟩⟩

theorem Later.acked {s t : State backend} (later : Later s t) {id : String} (acked : Acked s id) : Acked t id := by
  obtain ⟨d,found,some⟩ := acked
  obtain ⟨d',found',_,kept⟩ := later.kept id d found
  exact ⟨d',found',kept some⟩

theorem Later.copy {s t : State backend} (later : Later s t) {c : RuntimeCommand} (copy : Copy s c) : Copy t c := by
  grind -linarith only [Copy,cases Later]

theorem asQueued_facts {c d : RuntimeCommand} (same : asQueued c = asQueued d) :
    c.kind = d.kind ∧ c.epoch = d.epoch ∧ parentId .commands c = parentId .commands d ∧ isTask c = isTask d := by
  grind -linarith only [asQueued,parentId,isTask]

/-- One request: the server keeps what it had; a command is new, or an old one that it may have acknowledged or handed
    out. -/
structure Serves (s t : State backend) (acks hands : String → Prop) : Prop where
  later : Later s t
  traced : ∀ id d', (laws backend).command t id = some d' → (d'.ackedAt = none ∧ d'.deliveryCount = 0) ∨
    ∃ d, (laws backend).command s id = some d ∧ asQueued d' = asQueued d ∧ (d'.ackedAt ≠ none → d.ackedAt ≠ none ∨ acks id) ∧
      (d'.deliveryCount ≠ 0 → d.deliveryCount ≠ 0 ∨ hands id)

theorem serves_refl {s : State backend} (good : (laws backend).good s) (acks hands : String → Prop) : Serves s s acks hands :=
  ⟨.refl good,fun _ d found => .inr ⟨d,found,rfl,.inl,.inl⟩⟩

section
variable {s : State backend} (good : (laws backend).good s)
include good

theorem queue_serves (now saved : Time) {commandId : String} (runId : String) (kind : CommandKind) (payload : Fields)
    (key : String) (fresh : (laws backend).command s commandId = none) (acks hands : String → Prop) :
    Serves s ((commandStore backend).queueCommand now saved commandId runId kind payload key s).2 acks hands := by
  rcases queue_queues good now saved commandId runId kind payload key with
    ⟨e,raised⟩ | ⟨c,there,ran⟩ | ⟨run,t,c,_,made,ran,kept,saves⟩
  · rw [raised]; exact serves_refl good acks hands
  · rw [ran]; exact serves_refl good acks hands
  · rw [ran]
    have commands := saves.commands
    refine ⟨⟨kept,fun id d found => ⟨d,by grind -linarith only,rfl,fun acked => acked⟩⟩,fun id d' found => ?_⟩
    grind -linarith only

theorem claim_serves (choice : Choice) :
    ∃ answer t, claim lease choice s = (answer,t) ∧ Serves s t (fun _ => False)
        (fun id => ∃ c ∈ handedOut (laws backend) choice.now lease.epoch lease.runId s, c.id = id) ∧
      ∀ commands, answer = some commands → ∀ c ∈ commands,
        c ∈ handedOut (laws backend) choice.now lease.epoch lease.runId s ∧ Copy t c ∧ ¬Acked s c.id := by
  by_cases lost : (choice.fails && !choice.reaches) = true
  · refine ⟨none,s,by simp [claim,lost],serves_refl good _ _,nofun⟩
  rcases claim_claims good choice.now choice.saved lease.runId lease.computerId lease.leaseId lease.epoch with
    ⟨e,raised⟩ | ⟨run,t,_,fence,ran,delivered,untouched⟩
  · refine ⟨none,s,by simp [claim,raised],serves_refl good _ _,nofun⟩
  · have own : run.epoch = lease.epoch := (requireFence_ok fence).2.1
    rw [own] at ran untouched
    have serves : Serves s t (fun _ => False)
        (fun id => ∃ c ∈ handedOut (laws backend) choice.now lease.epoch lease.runId s, c.id = id) := by
      refine ⟨⟨delivered.good,fun id d found => ?_⟩,fun id d' found => .inr ?_⟩
      · grind -linarith only [map_some,map_eq_some_iff,cases Delivered]
      · grind -linarith only [map_some,map_eq_some_iff,List.mem_map,cases Delivered]
    refine ⟨if choice.fails then none else some (handedOut (laws backend) choice.now lease.epoch lease.runId s),t,
      by simp only [claim,if_neg lost,ran],serves,fun commands equal c member => ?_⟩
    split at equal
    · cases equal
    · cases equal
      obtain ⟨d,inside,rfl⟩ := mem_map.mp member
      obtain ⟨listed,can⟩ := mem_filter.mp inside
      have stored : (laws backend).command s d.id = some d := ((laws backend).mem_listing good).mp listed |>.1
      refine ⟨member,serves.later.copy ⟨d,stored,rfl⟩,?_⟩
      grind -linarith only [claimable,Acked,claimedCommand]

theorem acknowledge_serves (choice : Choice) (command : RuntimeCommand) (result error : Option String) :
    ∃ ok t, acknowledge lease choice command result error s = (ok,t) ∧
      Serves s t (fun id => id = command.id) (fun _ => False) ∧ (ok = true → Acked t command.id) := by
  by_cases lost : (choice.fails && !choice.reaches) = true
  · exact ⟨false,s,by simp [acknowledge,lost],serves_refl good _ _,nofun⟩
  rcases acknowledge_acknowledges good choice.now (choice.saved command.id) lease.runId command.id lease.computerId lease.leaseId
    lease.epoch result error with ⟨e,raised⟩ | ⟨c,there,acked,ran⟩ | ⟨c,t,there,ran,kept,saves⟩
  · exact ⟨false,s,by simp [acknowledge,raised],serves_refl good _ _,nofun⟩
  · exact ⟨!choice.fails,s,by simp only [acknowledge,if_neg lost,ran],serves_refl good _ _,fun _ => ⟨c,there,acked⟩⟩
  · have own : c.id = command.id := ((laws backend).filed good there).1
    have stored : ∀ id, (laws backend).command t id =
        if id = command.id then some (ackedCommand choice.now result error c) else (laws backend).command s id :=
      fun id => own ▸ saves.commands id
    refine ⟨!choice.fails,t,by simp only [acknowledge,if_neg lost,ran],⟨⟨kept,fun id d found => ?_⟩,fun id d' found => .inr ?_⟩,
      fun _ => ⟨_,(stored _).trans (if_pos rfl),by simp [ackedCommand]⟩⟩
    all_goals grind -linarith only [ackedCommand,asQueued]

end

/-! ## The invariant -/

/-- What holds of the command that the thread of `_execute` is busy with. -/
def Shape (s : State backend) (started released : List String) : Main → Prop
  | .choosing selected _ => ∀ c ∈ selected, isTask c = true
  | .answering selected command _ _ _ => (∀ c ∈ selected, isTask c = true) ∧ Copy s command ∧ isTask command = false
  | .starting command => command.id ∉ started
  | .started command _ => command.id ∈ started
  | .releasing command => command.id ∈ released
  | _ => True

def RouterShape (s : State backend) : Routing → Prop
  | .answering command _ _ _ _ => Copy s command ∧ isTask command = false
  | _ => True

structure Inv (w : World backend) : Prop where
  good : (laws backend).good w.server
  copied : ∀ c ∈ held w, Copy w.server c
  shape : Shape w.server w.started w.released w.main
  routed : ∀ thread ∈ w.routers, RouterShape w.server thread.phase
  startedOnce : w.started.Nodup
  /-- What was started is gone from the worker and acknowledged, or about to be. -/
  settled : finished w.main = false → ∀ id ∈ w.started, Alone id w ∧
    (Acked w.server id ∨ ∃ command opened, w.main = .started command opened ∧ command.id = id)
  bounded : w.completed.length ≤ maxCompletedResults
  operatedOnce : w.operated.Nodup
  /-- What has run is remembered, or gone from the worker and acknowledged. -/
  cached : ∀ id ∈ w.operated, id ∈ w.completed.map Prod.fst ∨ (Acked w.server id ∧ Alone id w)
  /-- No start or release is acknowledged before it is executed. -/
  executed : ∀ id d, (laws backend).command w.server id = some d → Mine lease d → isTask d = true → d.ackedAt ≠ none →
    id ∈ w.started ∨ id ∈ w.released
  /-- When the workspace is released, every start and release that was delivered was executed. -/
  closed : closing w.main = true → ∀ id d, (laws backend).command w.server id = some d → Mine lease d → isTask d = true →
    d.deliveryCount ≠ 0 → id ∈ w.started ∨ id ∈ w.released

variable {w : World backend} {c command : RuntimeCommand} {s t : State backend}

theorem mem_held :
    c ∈ held w ↔ c ∈ w.pending ∨ c ∈ mainHolds w.main ∨ ∃ thread ∈ w.routers, c ∈ routerHolds thread.phase := by
  simp [held]

variable {lease}

/-- A command that may be held once the server has answered with `t`. -/
abbrev Holdable (w : World backend) (t : State backend) (c : RuntimeCommand) : Prop :=
  c ∈ held w ∨ (Copy t c ∧ ¬Acked w.server c.id ∧ ∀ command opened, w.main = .started command opened → c.id ≠ command.id)

abbrev Executed (w : World backend) (ids : String → Prop) : Prop :=
  ∀ id d, ids id → (laws backend).command w.server id = some d → isTask d = true → id ∈ w.started ∨ id ∈ w.released

abbrev Taskless (w : World backend) (ids : String → Prop) : Prop :=
  ∀ id d, ids id → (laws backend).command w.server id = some d → isTask d = false

theorem Inv.move {w w' : World backend} (inv : Inv lease w) {acks hands : String → Prop}
    (serves : Serves w.server w'.server acks hands)
    (same : w'.started = w.started ∧ w'.released = w.released ∧ w'.operated = w.operated ∧ w'.completed = w.completed)
    (news : ∀ c ∈ held w', Holdable w w'.server c)
    (shape : Shape w'.server w.started w.released w'.main)
    (routed : ∀ thread ∈ w'.routers, RouterShape w'.server thread.phase)
    (goes : finished w'.main = false → finished w.main = false ∧ ∀ command opened, w.main = .started command opened →
      w'.main = .started command opened ∨ Acked w'.server command.id)
    (acked : Executed w acks)
    (closed : closing w'.main = true → closing w.main = true ∧ Taskless w hands) : Inv lease w' := by
  obtain ⟨sameStarted,sameReleased,sameOperated,sameCompleted⟩ := same
  obtain ⟨later,traced⟩ := serves
  obtain ⟨good,copied,shaped,routes,startedOnce,settled,bounded,operatedOnce,cached,executed,closes⟩ := inv
  -- What comes in is not acknowledged, and not the one that is being started.
  have alone {id : String} (gone : Alone id w) (done : Acked w.server id ∨
      ∃ command opened, w.main = .started command opened ∧ command.id = id) : Alone id w' := by
    intro c member same
    rcases news c member with old | ⟨_,unacked,apart⟩
    · exact gone c old same
    · rcases done with acked | ⟨command,opened,there,own⟩
      · exact unacked (same ▸ acked)
      · exact apart command opened there (same.trans own.symm)
  have before {d d' : RuntimeCommand} (same : asQueued d' = asQueued d) (mine : Mine lease d') (task : isTask d' = true) :
      Mine lease d ∧ isTask d = true := by
    obtain ⟨_,epoch,parent,tasks⟩ := asQueued_facts same
    exact ⟨⟨parent ▸ mine.1,epoch ▸ mine.2⟩,tasks ▸ task⟩
  refine ⟨later.good,?_,sameStarted ▸ sameReleased ▸ shape,routed,sameStarted ▸ startedOnce,?_,sameCompleted ▸ bounded,
    sameOperated ▸ operatedOnce,?_,?_,?_⟩
  · intro c member
    rcases news c member with old | ⟨copy,_⟩
    · exact later.copy (copied c old)
    · exact copy
  · intro going id listed
    obtain ⟨open_,next⟩ := goes going
    obtain ⟨gone,done⟩ := settled open_ id (sameStarted ▸ listed)
    refine ⟨alone gone done,?_⟩
    rcases done with acked | ⟨command,opened,there,own⟩
    · exact .inl (later.acked acked)
    · exact (next command opened there).symm.imp (own ▸ ·) fun still => ⟨command,opened,still,own⟩
  · intro id listed
    rcases cached id (sameOperated ▸ listed) with known | ⟨acked,gone⟩
    · exact .inl (sameCompleted ▸ known)
    · exact .inr ⟨later.acked acked,alone gone (.inl acked)⟩
  · intro id d' found mine task some
    rw [sameStarted,sameReleased]
    rcases traced id d' found with ⟨unacked,_⟩ | ⟨d,stored,same,acks,_⟩
    · exact absurd unacked some
    · obtain ⟨own,tasks⟩ := before same mine task
      exact (acks some).elim (executed id d stored own tasks) fun new => acked id d new stored tasks
  · intro releasing id d' found mine task counted
    obtain ⟨still,taskless⟩ := closed releasing
    rw [sameStarted,sameReleased]
    rcases traced id d' found with ⟨_,none⟩ | ⟨d,stored,same,_,hands⟩
    · exact absurd none counted
    · obtain ⟨own,tasks⟩ := before same mine task
      refine (hands counted).elim (closes still id d stored own tasks) fun handed => ?_
      rw [taskless id d handed stored] at tasks; cases tasks

/-! ## Executions -/

theorem Alone.fewer {w w' : World backend} {id : String} (fewer : ∀ c ∈ held w', c ∈ held w) (gone : Alone id w) :
    Alone id w' := fun c member => gone c (fewer c member)

theorem Inv.start (inv : Inv lease w) (there : w.main = .starting command)
    (alone : Alone command.id w) (raises opened : Bool) :
    Inv lease { w with
      started := w.started ++ [command.id]
      main := if raises then .failed else .started command opened } := by
  obtain ⟨good,copied,shape,routed,startedOnce,settled,bounded,operatedOnce,cached,executed,closed⟩ := inv
  have fresh : command.id ∉ w.started := by rwa [there] at shape
  have fewer : ∀ c, c ∈ held { w with
      started := w.started ++ [command.id]
      main := if raises then .failed else .started command opened } → c ∈ held w := by
    cases raises <;> simp [mem_held,there,mainHolds]
  refine ⟨good,fun c member => copied c (fewer c member),?_,routed,concat_eq_append ▸ .concat fresh startedOnce,
    fun going id listed => ?_,bounded,operatedOnce,
    fun id listed => (cached id listed).imp_right (.imp_right (.fewer fewer)),
    fun id d found mine task acked => ?_,fun releasing => ?_⟩
  · cases raises <;> simp [Shape]
  · cases raises with
    | true => cases going
    | false =>
      rcases mem_append.mp listed with old | new
      · obtain ⟨gone,done⟩ := settled (by rw [there]; rfl) id old
        refine ⟨gone.fewer fewer,.inl (done.resolve_right ?_)⟩
        rintro ⟨_,_,busy,_⟩
        rw [there] at busy; cases busy
      · rw [mem_singleton.mp new]; exact ⟨alone.fewer fewer,.inr ⟨command,opened,rfl,rfl⟩⟩
  · exact (executed id d found mine task acked).imp_left (mem_append_left _)
  · cases raises <;> cases releasing

theorem Inv.release (inv : Inv lease w)
    (there : w.main = .choosing (some command) []) (last : LastTask lease command w) (raises : Bool) :
    Inv lease { w with
      released := w.released ++ [command.id]
      main := if raises then .failed else .releasing command } := by
  obtain ⟨good,copied,shape,routed,startedOnce,settled,bounded,operatedOnce,cached,executed,closed⟩ := inv
  have fewer : ∀ c, c ∈ held { w with
      released := w.released ++ [command.id]
      main := if raises then .failed else .releasing command } → c ∈ held w := by
    cases raises <;> simp [mem_held,mainHolds] <;> tauto
  refine ⟨good,fun c member => copied c (fewer c member),?_,routed,startedOnce,fun _ id listed => ?_,
    bounded,operatedOnce,fun id listed => (cached id listed).imp_right (.imp_right (.fewer fewer)),
    fun id d found mine task acked => ?_,fun _ id d found mine task counted => ?_⟩
  · cases raises <;> simp [Shape]
  · obtain ⟨gone,done⟩ := settled (by rw [there]; rfl) id listed
    refine ⟨gone.fewer fewer,.inl (done.resolve_right ?_)⟩
    rintro ⟨_,_,busy,_⟩
    rw [there] at busy; cases busy
  · exact (executed id d found mine task acked).imp_right (mem_append_left _)
  · have own : d.id = id := ((laws backend).filed good found).1
    have listed : d ∈ (laws backend).listing w.server lease.runId :=
      ((laws backend).mem_listing good).mpr ⟨own.symm ▸ found,mine.1⟩
    rcases last d listed task mine.2 (Nat.pos_of_ne_zero counted) with same | acked
    · exact .inr (mem_append_right _ (mem_singleton.mpr (own ▸ same)))
    · exact (executed id d found mine task acked).imp_right (mem_append_left _)

theorem remembered_none (unknown : remembered w command = none) : command.id ∉ w.completed.map Prod.fst := by
  grind -linarith only [List.mem_map,remembered,map_eq_none_iff,List.find?_eq_none]

theorem trimmed_append {completed : List (String × Option String × Option String)}
    (bounded : completed.length ≤ maxCompletedResults)
    (entry : String × Option String × Option String) :
    (completed.length < maxCompletedResults ∧ trimmed (completed ++ [entry]) = completed ++ [entry]) ∨
      maxCompletedResults ≤ completed.length ∧
        ∃ oldest rest, completed = oldest :: rest ∧ trimmed (completed ++ [entry]) = rest ++ [entry] := by
  rcases Nat.lt_or_ge completed.length maxCompletedResults with room | full
  · refine .inl ⟨room,?_⟩
    have none : (completed ++ [entry]).length - maxCompletedResults = 0 := by
      rw [length_append,length_singleton]
      omega
    rw [trimmed,none,drop_zero]
  · rcases completed with _ | ⟨oldest,rest⟩
    · exact absurd full (by decide)
    · have one : (oldest :: rest ++ [entry]).length - maxCompletedResults = 1 := by
        simp only [length_append,length_cons,length_nil] at full bounded ⊢
        omega
      exact .inr ⟨full,oldest,rest,rfl,by rw [trimmed,one]; rfl⟩

theorem Inv.execute (inv : Inv lease w) (inHand : command ∈ held w) (spares : Spares command w) (choice : Choice) :
    Inv lease (RuntimeWorker.execute choice command w).2 := by
  rcases known : remembered w command with _ | cached
  · have ran : (RuntimeWorker.execute choice command w).2 = { w with
        completed := trimmed (w.completed ++ [(command.id,choice.result,choice.error)])
        operated := w.operated ++ [command.id] } := by simp only [RuntimeWorker.execute,known]
    have room := trimmed_append inv.bounded (command.id,choice.result,choice.error)
    generalize trimmed (w.completed ++ [(command.id,choice.result,choice.error)]) = after at ran room
    rw [ran]
    have unknown := remembered_none known
    obtain ⟨good,copied,shape,routed,startedOnce,settled,bounded,operatedOnce,cached,executed,closed⟩ := inv
    have fresh : command.id ∉ w.operated := by
      intro listed
      exact (cached command.id listed).elim unknown fun done => done.2 command inHand rfl
    refine ⟨good,copied,shape,routed,startedOnce,settled,?_,concat_eq_append ▸ .concat fresh operatedOnce,fun id listed => ?_,executed,
      closed⟩
    · rcases room with ⟨less,rfl⟩ | ⟨_,oldest,rest,split,rfl⟩
      · rw [length_append]; exact less
      · rw [split] at bounded
        rw [length_append]; exact bounded
    rcases mem_append.mp listed with old | new
    · rcases room with ⟨_,rfl⟩ | ⟨full,oldest,rest,split,rfl⟩
      · rw [map_append]
        exact (cached id old).imp_left (mem_append_left _)
      · -- The oldest result is pushed out.
        rcases spares with some | less | sparing
        · simp [known] at some
        · exact absurd less (Nat.not_lt.mpr full)
        · obtain ⟨acked,alone⟩ := sparing oldest (by rw [split]; rfl)
          obtain ⟨d,found,some⟩ := (any_eq_true _ _).mp acked
          have done : Acked w.server oldest.1 := ⟨d,found,of_decide_eq_true some⟩
          rcases cached id old with known | ⟨acked,gone⟩
          · rw [split,map_cons,mem_cons] at known
            rw [map_append]
            rcases known with rfl | kept
            · exact .inr ⟨done,alone⟩
            · exact .inl (mem_append_left _ kept)
          · exact .inr ⟨acked,gone⟩
    · rw [mem_singleton.mp new]
      rcases room with ⟨_,rfl⟩ | ⟨_,_,_,_,rfl⟩ <;> simp
  · have idle : (RuntimeWorker.execute choice command w).2 = w := by simp only [RuntimeWorker.execute,known]
    rw [idle]; exact inv

/-! ## Steps -/

theorem Copy.untasked {d : RuntimeCommand} (copy : Copy s c) (untasked : isTask c = false)
    (found : (laws backend).command s c.id = some d) : isTask d = false := by
  obtain ⟨other,stored,same⟩ := copy
  cases found.symm.trans stored
  rw [(asQueued_facts same).2.2.2,untasked]

theorem RouterShape.later (later : Later s t) {phase : Routing} (shape : RouterShape s phase) : RouterShape t phase := by
  cases phase with
  | answering command result error guarded rest => exact ⟨later.copy shape.1,shape.2⟩
  | _ => trivial

theorem Shape.later (later : Later s t) {started released : List String} {m : Main}
    (shape : Shape s started released m) : Shape t started released m := by
  cases m <;> grind -linarith only [later.copy,Shape]

theorem Inv.proceed (inv : Inv lease w) {acks hands : String → Prop}
    (serves : Serves w.server t acks hands) (pending : List RuntimeCommand) (m : Main)
    (holds : ∀ c, c ∈ pending ∨ c ∈ mainHolds m → Holdable w t c)
    (shape : Shape t w.started w.released m)
    (goes : finished m = false → finished w.main = false ∧
      ∀ command opened, w.main = .started command opened → Acked t command.id)
    (acked : Executed w acks)
    (closed : closing m = true → closing w.main = true ∧ Taskless w hands) :
    Inv lease { w with server := t,pending := pending,main := m } := by
  refine inv.move serves ⟨rfl,rfl,rfl,rfl⟩ (fun c member => ?_) shape
    (fun thread member => (inv.routed thread member).later serves.later)
    (fun going => ⟨(goes going).1,fun command opened there => .inr ((goes going).2 command opened there)⟩) acked closed
  grind -linarith only [= mem_held]

theorem Inv.pass (inv : Inv lease w) (pending : List RuntimeCommand) (m : Main)
    (holds : ∀ c, c ∈ pending ∨ c ∈ mainHolds m → c ∈ held w) (shape : Shape w.server w.started w.released m)
    (goes : finished w.main = false ∧ ∀ command opened, w.main ≠ .started command opened) (open_ : closing m = false) :
    Inv lease { w with pending := pending,main := m } :=
  inv.proceed (serves_refl inv.good (fun _ => False) (fun _ => False)) pending m (fun c member => .inl (holds c member)) shape
    (fun _ => ⟨goes.1,fun command opened there => absurd there (goes.2 command opened)⟩) (fun _ _ impossible => impossible.elim)
    (fun releasing => by rw [open_] at releasing; cases releasing)

theorem Inv.reroute (inv : Inv lease w) {acks hands : String → Prop}
    (serves : Serves w.server t acks hands) (pending : List RuntimeCommand) (k : Nat) (thread : Router) (phase : Routing)
    (holds : ∀ c, c ∈ pending ∨ c ∈ routerHolds phase → Holdable w t c)
    (shape : RouterShape t phase)
    (acked : Executed w acks)
    (closed : closing w.main = true → Taskless w hands) :
    Inv lease { w with server := t,pending := pending,routers := w.routers.set k { thread with phase := phase } } := by
  refine inv.move serves ⟨rfl,rfl,rfl,rfl⟩ (fun c member => ?_) (inv.shape.later serves.later) (fun other member => ?_)
    (fun going => ⟨going,fun command opened there => .inl there⟩) acked (fun releasing => ⟨releasing,closed releasing⟩)
  · have either := @mem_or_eq_of_mem_set _ w.routers k
    grind -linarith only [= mem_held]
  · rcases mem_or_eq_of_mem_set member with before | rfl
    · exact (inv.routed other before).later serves.later
    · exact shape

theorem Inv.repass (inv : Inv lease w) (pending : List RuntimeCommand) (k : Nat) (thread : Router)
    (phase : Routing) (holds : ∀ c, c ∈ pending ∨ c ∈ routerHolds phase → c ∈ held w) (shape : RouterShape w.server phase) :
    Inv lease { w with pending := pending,routers := w.routers.set k { thread with phase := phase } } :=
  inv.reroute (serves_refl inv.good (fun _ => False) (fun _ => False)) pending k thread phase
    (fun c member => .inl (holds c member)) shape
    (fun _ _ impossible => impossible.elim) (fun _ _ _ impossible => impossible.elim)

theorem defer_defers (command : RuntimeCommand) (w : World backend) :
    ∃ pending, defer command w = { w with pending := pending } ∧ ∀ c ∈ pending, c ∈ w.pending ∨ c = command := by
  unfold defer
  split
  all_goals grind -linarith only [mem_append,mem_singleton]

theorem mem_pending (member : c ∈ w.pending) : c ∈ held w := mem_held.mpr (.inl member)

theorem mem_main {w : World backend} {c : RuntimeCommand} {m : Main} (there : w.main = m) (member : c ∈ mainHolds m) :
    c ∈ held w := mem_held.mpr (.inr (.inl (there ▸ member)))

theorem execute_frame (choice : Choice) (command : RuntimeCommand) (w : World backend) :
    (execute choice command w).2.main = w.main ∧ (execute choice command w).2.server = w.server ∧
      (execute choice command w).2.routers = w.routers ∧ ∀ c, c ∈ held (execute choice command w).2 ↔ c ∈ held w := by
  unfold RuntimeWorker.execute
  split
  · exact ⟨rfl,rfl,rfl,fun c => Iff.rfl⟩
  · exact ⟨rfl,rfl,rfl,fun c => by rw [mem_held,mem_held]⟩

theorem stopped_phase {routers : List Router} {k : Nat} {thread : Router}
    (member : thread ∈ routers.modify k (fun thread => { thread with stop := true })) :
    ∃ other ∈ routers, other.phase = thread.phase := by grind -linarith [getElem?_of_mem]

section
variable {w : World backend} (inv : Inv lease w)
include inv

theorem choose_inv {selected : Option RuntimeCommand} {command : RuntimeCommand} {rest : List RuntimeCommand}
    (there : w.main = .choosing selected (command :: rest)) (choice : Choice)
    (spares : selected = none → command.kind = .operation → Spares command w) :
    Inv lease (choose choice selected command rest w) := by
  have goes : finished w.main = false ∧ ∀ other opened, w.main ≠ .started other opened := by
    rw [there]; exact ⟨rfl,fun _ _ impossible => by cases impossible⟩
  have tasks : ∀ c ∈ selected, isTask c = true := by
    have shape := inv.shape
    rwa [there] at shape
  have inHand : command ∈ held w := mem_main there (by simp [mainHolds])
  have others : ∀ c, c ∈ selected.toList ++ rest → c ∈ held w := fun c member =>
    mem_main there (by simp only [mainHolds,mem_append] at member ⊢; tauto)
  have deferring : Inv lease { defer command w with main := .choosing selected rest } := by
    obtain ⟨pending,deferred,inside⟩ := defer_defers command w
    rw [deferred]
    exact inv.pass _ _ (by grind -linarith only [→ mem_pending,mainHolds]) tasks goes rfl
  have selecting : isTask command = true → selected = none → Inv lease { w with main := .choosing (some command) rest } := by
    rintro task rfl
    refine inv.pass w.pending _ (fun c member => ?_) (fun c chosen => ?_) goes rfl
    all_goals grind -linarith [mainHolds,mem_pending]
  have answering : ∀ result error, isTask command = false →
      Inv lease { w with main := .answering selected command result error rest } := fun result error untasked =>
    inv.pass w.pending _ (by grind -linarith only [→ mem_pending,mainHolds]) ⟨tasks,inv.copied command inHand,untasked⟩ goes rfl
  unfold choose
  cases kind : command.kind with
  | start | release =>
    cases selected with
    | none => exact selecting (by simp [isTask,kind]) rfl
    | some chosen => exact deferring
  | operation =>
    cases selected with
    | some chosen => exact deferring
    | none =>
      have ran := inv.execute inHand (spares rfl kind) choice
      obtain ⟨sameMain,sameServer,_,same⟩ := execute_frame choice command w
      exact ran.pass (execute choice command w).2.pending _ (by grind -linarith only [→ mem_pending,mainHolds])
        ⟨tasks,sameServer ▸ inv.copied command inHand,by simp [isTask,kind]⟩ (by rw [sameMain]; exact goes) rfl
  | steer | agentCommand | approve | cancel | prepare | checkpoint => exact answering none _ (by simp [isTask,kind])

theorem acknowledge_inv (command : RuntimeCommand) (result error : Option String) (choice : Choice) (next : Main)
    (there : ∀ c opened, w.main = .started c opened → c = command)
    (done : (Copy w.server command ∧ isTask command = false) ∨ command.id ∈ w.started ∨ command.id ∈ w.released)
    (holds : ∀ c ∈ mainHolds next, c ∈ held w) (shape : ∀ t, Later w.server t → Shape t w.started w.released next)
    (goes : finished next = false → finished w.main = false) (closed : closing next = true → closing w.main = true) :
    ∃ ok t, acknowledge lease choice command result error w.server = (ok,t) ∧
      (ok = true → Inv lease { w with server := t,main := next }) ∧ Inv lease { w with server := t,main := .failed } := by
  obtain ⟨ok,t,ran,serves,acked⟩ := acknowledge_serves lease inv.good choice command result error
  have records : ∀ id d, id = command.id → (laws backend).command w.server id = some d → isTask d = true →
      id ∈ w.started ∨ id ∈ w.released := by
    rintro id d rfl found task
    rcases done with ⟨copy,untasked⟩ | listed
    · simp [copy.untasked untasked found] at task
    · exact listed
  refine ⟨ok,t,ran,fun answered => ?_,?_⟩
  · exact inv.proceed serves w.pending next (by grind -linarith only [→ mem_pending]) (shape t serves.later)
      (fun going => ⟨goes going,fun c opened here => there c opened here ▸ acked answered⟩) records
      (fun releasing => ⟨closed releasing,fun _ _ => False.elim⟩)
  · exact inv.proceed serves w.pending .failed (fun c member => .inl (mem_pending (by simpa [mainHolds] using member))) trivial
      (by rintro ⟨⟩) records (by rintro ⟨⟩)

theorem threads_inv (routers : List Router) (next : Main) (nothing : mainHolds next = [])
    (threads : ∀ thread ∈ routers, thread.phase = .idle ∨ ∃ other ∈ w.routers, other.phase = thread.phase)
    (shape : Shape w.server w.started w.released next) (open_ : closing next = false)
    (goes : finished w.main = false ∧ ∀ command opened, w.main ≠ .started command opened) :
    Inv lease { w with routers := routers,main := next } := by
  refine inv.move (serves_refl inv.good (fun _ => False) (fun _ => False)) ⟨rfl,rfl,rfl,rfl⟩ (fun c member => .inl ?_) shape
    (fun thread member => ?_) (fun _ => ⟨goes.1,fun command opened there => absurd there (goes.2 command opened)⟩)
    (fun _ _ => False.elim)
    (by simp [open_])
  · grind -linarith only [= mem_held,routerHolds,not_mem_nil]
  grind -linarith only [RouterShape,cases Inv]

theorem main_inv (choice : Choice) (careful : Careful lease w (.main choice)) : Inv lease (mainStep lease choice w) := by
  have passing : ∀ m, mainHolds m = [] → Shape w.server w.started w.released m → closing m = false →
      (finished w.main = false ∧ ∀ c opened, w.main ≠ .started c opened) → Inv lease { w with main := m } :=
    fun m nothing shape open_ goes => inv.pass w.pending m (fun c member => mem_pending (by simpa [nothing] using member)) shape goes open_
  have shape := inv.shape
  have allowed : CarefulMain lease w w.main := careful
  unfold mainStep
  cases there : w.main with
  | waiting => exact inv.pass w.pending _ (fun c member => mem_pending (member.elim id id)) trivial (by simp [there,finished]) rfl
  | claiming snapshot =>
    obtain ⟨answer,t,ran,serves,handed⟩ := claim_serves lease inv.good choice
    simp only [ran]
    cases answer with
    | none =>
      exact inv.proceed serves w.pending .failed (fun c member => .inl (mem_pending (by simpa [mainHolds] using member)))
        trivial (by rintro ⟨⟩) (fun _ _ => False.elim) (by rintro ⟨⟩)
    | some claimed =>
      refine inv.proceed serves w.pending (.taking snapshot claimed) (fun c member => ?_) trivial
        (fun _ => by simp [there,finished]) (fun _ _ => False.elim) (by rintro ⟨⟩)
      have old := @mem_main _ w c _ there
      grind -linarith only [→ mem_pending,mainHolds,= mem_append]
  | taking snapshot claimed =>
    refine inv.pass _ _ (fun c member => ?_) (by simp [Shape]) (by simp [there,finished]) rfl
    rcases member with waiting | mine
    · exact mem_pending (mem_of_mem_filter waiting)
    · exact mem_main there (by simpa [mainHolds] using mine)
  | choosing selected rest =>
    rw [there] at allowed
    cases rest with
    | cons command rest => exact choose_inv inv there choice (by rintro rfl; exact allowed)
    | nil =>
      have goes : finished w.main = false ∧ ∀ other opened, w.main ≠ .started other opened := by simp [there,finished]
      cases selected with
      | none =>
        cases choice.fails
        · exact passing .waiting rfl trivial rfl goes
        · exact passing .failed rfl trivial rfl goes
      | some command =>
        simp only
        split
        · next kind => exact inv.release there (allowed kind) choice.raises
        · refine passing (.starting command) rfl ?_ rfl goes
          intro listed
          exact (inv.settled goes.1 command.id listed).1 command (mem_main there (by simp [mainHolds])) rfl
  | answering selected command result error rest =>
    rw [there] at shape
    obtain ⟨tasks,copy,untasked⟩ := shape
    obtain ⟨ok,t,ran,answered,failed⟩ := acknowledge_inv inv command result error choice (.choosing selected rest)
      (by simp [there]) (.inl ⟨copy,untasked⟩) (fun c mine => mem_main there mine) (fun _ _ => tasks)
      (by simp [there,finished]) (by rintro ⟨⟩)
    simp only [ran]
    cases ok with
    | true => exact answered rfl
    | false => exact failed
  | starting command =>
    simp only
    split
    · exact passing .failed rfl trivial rfl (by simp [there,finished])
    · rw [there] at allowed
      exact inv.start there allowed choice.raises choice.opens
  | started command opened =>
    rw [there] at shape
    obtain ⟨ok,t,ran,answered,failed⟩ := acknowledge_inv inv command none none choice .completing
      (by simp +contextual [there]) (.inr (.inl shape)) (by simp [mainHolds]) (fun _ _ => trivial)
      (by simp [there,finished]) (by rintro ⟨⟩)
    simp only [ran]
    cases ok with
    | false => exact failed
    | true =>
      have acked := answered rfl
      cases opened with
      | false => exact acked
      | true =>
        refine threads_inv acked (w.routers ++ [({} : Router)]) (.turning w.routers.length) rfl (fun thread member => ?_)
          trivial rfl (by simp [finished])
        grind -linarith only [mem_append,mem_singleton]
  | turning router =>
    exact threads_inv inv _ _ rfl (fun thread member => .inr (stopped_phase member)) trivial rfl
      (by simp [there,finished])
  | joining failing =>
    cases failing
    · exact passing .completing rfl trivial rfl (by simp [there,finished])
    · exact passing .failed rfl trivial rfl (by simp [there,finished])
  | completing =>
    cases choice.fails
    · exact passing .waiting rfl trivial rfl (by simp [there,finished])
    · exact passing .failed rfl trivial rfl (by simp [there,finished])
  | releasing command =>
    rw [there] at shape
    obtain ⟨ok,t,ran,answered,failed⟩ := acknowledge_inv inv command (some "\x7b\x7d") none choice .ended
      (by simp [there]) (.inr (.inr shape)) (by simp [mainHolds]) (fun _ _ => trivial) (by rintro ⟨⟩) (by simp [there,closing])
    simp only [ran]
    cases ok with
    | true => exact answered rfl
    | false => exact failed
  | ended | failed => exact inv

section
variable {k : Nat} {thread : Router} (found : w.routers[k]? = some thread)
include found

omit inv in
theorem mem_router {c : RuntimeCommand} (member : c ∈ routerHolds thread.phase) : c ∈ held w :=
  mem_held.mpr (.inr (.inr ⟨thread,mem_of_getElem? found,member⟩))

theorem route_inv {command : RuntimeCommand} {rest : List RuntimeCommand} (there : thread.phase = .routing (command :: rest))
    (choice : Choice) (spares : command.kind = .operation → Spares command w) :
    Inv lease { (route choice command rest w).1 with
      routers := w.routers.set k { thread with phase := (route choice command rest w).2 } } := by
  have inHand : command ∈ held w := mem_router found (by simp [there,routerHolds])
  have others : ∀ c ∈ rest, c ∈ held w := fun c member => mem_router found (by simp [there,routerHolds,member])
  have copy := inv.copied command inHand
  have deferring : Inv lease { defer command w with routers := w.routers.set k { thread with phase := .routing rest } } := by
    obtain ⟨pending,deferred,inside⟩ := defer_defers command w
    rw [deferred]
    exact inv.repass pending k thread (.routing rest) (by grind -linarith only [→ mem_pending,routerHolds]) trivial
  have answering : ∀ result error guarded, isTask command = false →
      Inv lease { w with routers := w.routers.set k { thread with phase := .answering command result error guarded rest } } :=
    fun result error guarded untasked => inv.repass w.pending k thread (.answering command result error guarded rest)
      (by grind -linarith only [→ mem_pending,routerHolds]) ⟨copy,untasked⟩
  have ending : Inv lease { w with routers := w.routers.set k { thread with phase := .done } } :=
    inv.repass w.pending k thread .done (fun c member => mem_pending (by simpa [routerHolds] using member)) trivial
  have handling : isTask command = false →
      Inv lease { w with routers := w.routers.set k { thread with
        phase := if choice.raises then .done else .answering command none choice.error choice.guarded rest } } := by
    intro untasked
    cases choice.raises
    · exact answering none choice.error choice.guarded untasked
    · exact ending
  unfold route
  cases kind : command.kind with
  | start | release => exact deferring
  | operation =>
    have ran := inv.execute inHand (spares kind) choice
    obtain ⟨_,sameServer,sameRouters,same⟩ := execute_frame choice command w
    have moved := ran.repass (execute choice command w).2.pending k thread
      (.answering command (execute choice command w).1.1 (execute choice command w).1.2 true rest)
      (by grind -linarith only [→ mem_pending,routerHolds]) ⟨sameServer ▸ copy,by simp [isTask,kind]⟩
    rwa [sameRouters] at moved
  | steer | agentCommand | approve | cancel => exact handling (by simp [isTask,kind])
  | prepare | checkpoint => exact answering none _ true (by simp [isTask,kind])

theorem router_inv (choice : Choice) (careful : Careful lease w (.router k choice)) :
    Inv lease { (routerStep lease choice thread w).1 with
      routers := w.routers.set k { thread with phase := (routerStep lease choice thread w).2 } } := by
  have allowed : CarefulRouter lease choice w thread.phase := careful thread found
  have idling : ∀ phase : Routing, routerHolds phase = [] → RouterShape w.server phase →
      Inv lease { w with routers := w.routers.set k { thread with phase := phase } } :=
    fun phase nothing shape => inv.repass w.pending k thread phase
      (fun c member => mem_pending (by simpa [nothing] using member)) shape
  unfold routerStep
  cases there : thread.phase with
  | idle =>
    simp only
    split
    · exact idling .done rfl trivial
    · exact idling .polling rfl trivial
  | polling => exact inv.repass w.pending k thread (.claiming w.pending) (fun c member => mem_pending (member.elim id id)) trivial
  | claiming snapshot =>
    rw [there] at allowed
    obtain ⟨answer,t,ran,serves,handed⟩ := claim_serves lease inv.good choice
    simp only [ran]
    have closed : closing w.main = true → ∀ id d, (∃ c ∈ handedOut (laws backend) choice.now lease.epoch lease.runId w.server,
        c.id = id) → (laws backend).command w.server id = some d → isTask d = false := by
      rintro releasing id d ⟨c,given,rfl⟩ stored
      have harmless := allowed c given
      obtain ⟨listed,inside,rfl⟩ := mem_map.mp given
      have own := (((laws backend).mem_listing inv.good).mp (mem_of_mem_filter inside)).1
      have equal : listed = d := Option.some.inj (own.symm.trans stored)
      subst equal
      cases main : w.main <;> rw [main] at harmless releasing <;> first | exact harmless | cases releasing
    cases answer with
    | none =>
      exact inv.reroute serves w.pending k thread .done (fun c member => .inl (mem_pending (by simpa [routerHolds] using member)))
        trivial (fun _ _ => False.elim) closed
    | some claimed =>
      refine inv.reroute serves w.pending k thread (.taking snapshot claimed) (fun c member => ?_) trivial
        (fun _ _ => False.elim) closed
      rcases member with waiting | mine
      · exact .inl (mem_pending waiting)
      · rcases mem_append.mp mine with old | new
        · exact .inl (mem_router found (by rw [there]; exact old))
        · obtain ⟨given,copy,unacked⟩ := handed claimed rfl c new
          have harmless := allowed c given
          exact .inr ⟨copy,unacked,fun command opened main => by rwa [main] at harmless⟩
  | taking snapshot claimed =>
    grind -linarith only [inv.repass,mem_pending,mem_of_mem_filter,mem_router,RouterShape,forget,routerHolds]
  | routing rest =>
    cases rest with
    | nil =>
      simp only
      split
      · exact idling .done rfl trivial
      · exact idling .idle rfl trivial
    | cons command rest =>
      rw [there] at allowed
      exact route_inv inv found there choice allowed
  | answering command result error guarded rest =>
    have shape := inv.routed thread (mem_of_getElem? found)
    rw [there] at shape
    obtain ⟨copy,untasked⟩ := shape
    obtain ⟨ok,t,ran,serves,_⟩ := acknowledge_serves lease inv.good choice command result error
    have onward : ∀ phase, (∀ c ∈ routerHolds phase, c ∈ rest) → RouterShape t phase →
        Inv lease { w with server := t,routers := w.routers.set k { thread with phase := phase } } := fun phase inside shape =>
      inv.reroute serves w.pending k thread phase
        (fun c member => .inl (member.elim mem_pending (fun mine => mem_router found (by rw [there]; exact inside c mine)))) shape
        (fun _ _ here stored task => absurd task (by simp [copy.untasked untasked (here ▸ stored)])) (fun _ _ _ => False.elim)
    grind -linarith [serves.later.copy,routerHolds,RouterShape]
  | done => exact idling .done rfl trivial

end

end

theorem step_inv {w : World backend} (inv : Inv lease w) (action : Action) (careful : Careful lease w action) :
    Inv lease (step lease w action) := by
  cases action with
  | queue now saved commandId kind payload key =>
    have serves := queue_serves inv.good now saved lease.runId kind payload key careful (fun _ => False) (fun _ => False)
    exact inv.move serves ⟨rfl,rfl,rfl,rfl⟩ (fun c member => .inl member) (inv.shape.later serves.later)
      (fun thread member => (inv.routed thread member).later serves.later)
      (fun going => ⟨going,fun command opened there => .inl there⟩) (fun _ _ => False.elim)
      (fun releasing => ⟨releasing,fun _ _ => False.elim⟩)
  | main choice => exact main_inv inv choice careful
  | router k choice => grind -linarith only [step,router_inv]

/-! ## Whole runs -/

variable (lease)

/-- A worker that has just got its lease: no command of this epoch was delivered yet. -/
structure Fresh (w : World backend) : Prop where
  good : (laws backend).good w.server
  waiting : w.main = .waiting
  empty : w.pending = [] ∧ w.completed = [] ∧ w.routers = [] ∧ w.started = [] ∧ w.operated = [] ∧ w.released = []
  undelivered : ∀ id d, (laws backend).command w.server id = some d → Mine lease d → d.ackedAt = none

theorem fresh_inv {w : World backend} (fresh : Fresh lease w) : Inv lease w := by
  obtain ⟨pending,completed,routers,started,operated,released⟩ := fresh.empty
  have nothing : ∀ c, c ∉ held w := by simp [mem_held,pending,fresh.waiting,mainHolds,routers]
  exact ⟨fresh.good,fun c member => absurd member (nothing c),by rw [fresh.waiting]; trivial,by simp [routers],by simp [started],
    by simp [started],by simp [completed],by simp [operated],by simp [operated],
    fun id d found mine _ acked => absurd (fresh.undelivered id d found mine) acked,by simp [fresh.waiting,closing]⟩

end

/-! ## Two runs -/

section
variable {backend : Backend} (lease : Lease)

instance (id : String) (w : World backend) : Decidable (Alone id w) := inferInstanceAs (Decidable (∀ c ∈ held w, c.id ≠ id))
instance (command : RuntimeCommand) (w : World backend) : Decidable (Spares command w) :=
  inferInstanceAs (Decidable (_ ∨ _ ∨ ∀ entry ∈ w.completed.head?, _ ∧ _))
instance (command : RuntimeCommand) (w : World backend) : Decidable (LastTask lease command w) :=
  inferInstanceAs (Decidable (∀ d ∈ (laws backend).listing w.server lease.runId, _))
instance (c : RuntimeCommand) (m : Main) : Decidable (HarmlessTo c m) := by
  cases m <;> unfold HarmlessTo <;> infer_instance
instance (choice : Choice) (w : World backend) : Decidable (Harmless lease choice w) :=
  inferInstanceAs (Decidable (∀ c ∈ handedOut (laws backend) choice.now lease.epoch lease.runId w.server, _))
instance (w : World backend) (m : Main) : Decidable (CarefulMain lease w m) := by
  unfold CarefulMain
  split <;> infer_instance
instance (choice : Choice) (w : World backend) (phase : Routing) : Decidable (CarefulRouter lease choice w phase) := by
  unfold CarefulRouter
  split <;> infer_instance
instance (w : World backend) (action : Action) : Decidable (Careful lease w action) := by
  cases action <;> unfold Careful <;> infer_instance

end

def theLease : Lease := { runId := "run",computerId := "computer",leaseId := "lease",epoch := 1 }
def idleWorker : World .files := { server := CommandOrder.filesStart }

theorem idleWorker_fresh : Fresh theLease idleWorker :=
  ⟨CommandOrder.filesStart_good.1,rfl,⟨rfl,rfl,rfl,rfl,rfl,rfl⟩,fun id d found _ => by
    have none : CommandOrder.filesStart.docs.find .commands id = some d := found
    rw [CommandOrder.filesStart_commands] at none
    cases none⟩

/-- A step of the thread of `_execute` at a moment. -/
def onMain (moment : Nat) : Action := .main { now := seconds moment,saved := fun _ => seconds moment }
def queued (moment : Nat) (id : String) (kind : CommandKind) : Action :=
  .queue (seconds moment) (seconds moment) id kind .nil ""

def orderly : List Action :=
  queued 1 "turn" .start :: List.replicate 8 (onMain 2) ++ queued 3 "release" .release :: List.replicate 8 (onMain 4)

/-- Of two start commands delivered together, the first turn takes longer than a delivery stands, so that the worker
    gets the other one again. -/
def redelivered : List Action :=
  [queued 1 "first" .start,queued 2 "second" .start] ++ List.replicate 7 (onMain 3) ++ List.replicate 10 (onMain 30) ++
    List.replicate 7 (onMain 31)

end Cowork.CommandDelivery
