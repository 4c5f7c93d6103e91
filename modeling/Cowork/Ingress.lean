import Cowork.Transitions
import Mathlib.Logic.Function.Basic

/-!
The background loops that fetch a channel's inbound, one for each channel and
organization, with the renewal of its lease. `start` and `stop` change both over several
awaits, between which any other call, loop or renewal may run. Calls for one key that do
not overlap keep one loop at most (`one_loop_per_key`).
-/
namespace Cowork.Ingress
open Transitions List Function

abbrev Key := String × Option String

structure Bridge where
  name : Nat
  streamEvents : Bool
  poll : Bool
deriving DecidableEq

def Bridge.canIngest (bridge : Bridge) : Bool := bridge.streamEvents || bridge.poll

inductive LoopState where
  | running
  | told
  | cancelled
  | died
deriving DecidableEq

/-- `not task.done()` -/
def LoopState.alive : LoopState → Bool
  | .running | .told => true
  | .cancelled | .died => false

/-- `task.cancel()` -/
def LoopState.cancel : LoopState → LoopState
  | .running | .told => .told
  | .cancelled => .cancelled
  | .died => .died

structure Loop where
  key : Key
  state : LoopState
deriving DecidableEq

/-- Where `_renew_loop` waits. -/
inductive RenewalPhase where
  | sleeping
  | renewing (task : Nat)
  | releasing
  | finished
deriving DecidableEq

structure Renewal where
  key : Key
  phase : RenewalPhase
  told : Bool

def Renewal.active (renewal : Renewal) : Bool :=
  !renewal.told && match renewal.phase with
    | .sleeping | .renewing _ => true
    | .releasing | .finished => false

/-- Where a call waits. In a stop, `next` is the bridge that `start` goes on with after it. -/
inductive Phase where
  | awaitRenewal (renewal : Nat) (next : Option Bridge)
  | awaitTask (task : Nat) (next : Option Bridge)
  | awaitRelease (next : Option Bridge)
  | awaitLease (bridge : Bridge)
  | returned
deriving DecidableEq

structure Call where
  key : Key
  phase : Phase

/-- The maps of the manager, and every loop, renewal and call there was. `stopped` says of each stop that returned how
    many loops had been started by then. -/
structure World where
  tasks : Key → Option Nat
  renewalOf : Key → Option Nat
  bridges : Key → Option Bridge
  loops : List Loop
  renewals : List Renewal
  calls : List Call
  stopped : List (Key × Nat)

namespace World

def loopAlive (world : World) (t : Nat) : Bool := (world.loops[t]?).any (·.state.alive)

def isRunning (world : World) (key : Key) : Bool := (world.tasks key).any world.loopAlive

def cancelLoop (world : World) (t : Nat) : World :=
  { world with loops := world.loops.modify t fun loop => { loop with state := loop.state.cancel } }

def cancelRenewal (world : World) (r : Nat) : World :=
  { world with renewals := world.renewals.modify r fun renewal => { renewal with told := true } }

/-- The end of `start`: the loop is created and recorded. -/
def create (world : World) (key : Key) (bridge : Bridge) : World :=
  let world := { world with
    loops := world.loops ++ [⟨key,.running⟩]
    tasks := Function.update world.tasks key (some world.loops.length)
    bridges := Function.update world.bridges key (some bridge) }
  if key.2.isSome then
    { world with
      renewals := world.renewals ++ [⟨key,.sleeping,false⟩]
      renewalOf := Function.update world.renewalOf key (some world.renewals.length) }
  else world

/-- `start` once no loop is in its way. -/
def acquireOrCreate (world : World) (key : Key) (bridge : Bridge) : World × Phase :=
  if key.2.isSome then (world,.awaitLease bridge) else (world.create key bridge,.returned)

/-- A stop returns, to its caller or to the `start` that it is part of. -/
def stopReturns (world : World) (key : Key) (next : Option Bridge) : World × Phase :=
  let world := { world with stopped := world.stopped ++ [(key,world.loops.length)] }
  match next with
  | some bridge => world.acquireOrCreate key bridge
  | none => (world,.returned)

/-- `stop` once the loop is done. One that ended by an exception of its own raises it. -/
def afterTask (world : World) (key : Key) (t : Nat) (next : Option Bridge) : World × Phase :=
  if (world.loops[t]?).any (·.state = .died) then (world,.returned)
  else if key.2.isSome then (world,.awaitRelease next)
  else world.stopReturns key next

/-- `stop` once the renewal is over. -/
def takeTask (world : World) (key : Key) (next : Option Bridge) : World × Phase :=
  match world.tasks key with
  | none => world.stopReturns key next
  | some t =>
    let world := { world with tasks := Function.update world.tasks key none }.cancelLoop t
    if world.loopAlive t then (world,.awaitTask t next) else world.afterTask key t next

/-- `stop` up to its first await. -/
def beginStop (world : World) (key : Key) (next : Option Bridge) : World × Phase :=
  let popped := { world with
    bridges := Function.update world.bridges key none
    renewalOf := Function.update world.renewalOf key none }
  match world.renewalOf key with
  | none => popped.takeTask key next
  | some r =>
    if (world.renewals[r]?).any (·.phase ≠ .finished) then (popped.cancelRenewal r,.awaitRenewal r next)
    else popped.takeTask key next

/-- `start` up to its first await. -/
def beginStart (world : World) (key : Key) (bridge : Bridge) : World × Phase :=
  if !bridge.canIngest then (world,.returned)
  else if world.isRunning key then
    if world.bridges key = some bridge then (world,.returned) else world.beginStop key (some bridge)
  else world.acquireOrCreate key bridge

/-- A call goes on if what it waits for has come; `ok` is what the lease answers. -/
def goOn (world : World) (key : Key) (ok : Bool) : Phase → Option (World × Phase)
  | .awaitRenewal r next =>
    if (world.renewals[r]?).any (·.phase = .finished) then some (world.takeTask key next) else none
  | .awaitTask t next => if world.loopAlive t then none else some (world.afterTask key t next)
  | .awaitRelease next => some (world.stopReturns key next)
  | .awaitLease bridge => some (if ok then (world.create key bridge,.returned) else (world,.returned))
  | .returned => none

def setRenewal (world : World) (r : Nat) (renewal : Renewal) (phase : RenewalPhase) : World :=
  { world with renewals := world.renewals.set r { renewal with phase := phase } }

/-- `_renew_loop` after its sleep. -/
def wakes (world : World) (r : Nat) (renewal : Renewal) : World :=
  if world.isRunning renewal.key then
    match world.tasks renewal.key with
    | some t => world.setRenewal r renewal (.renewing t)
    | none => world
  else
    { world with
      renewalOf := Function.update world.renewalOf renewal.key none
      bridges := Function.update world.bridges renewal.key none }.setRenewal r renewal .releasing

/-- `_renew_loop` when its lease is lost: the loop that it looked at is told to stop. -/
def givesUp (world : World) (r : Nat) (renewal : Renewal) (t : Nat) : World :=
  ({ world with
    tasks := Function.update world.tasks renewal.key none
    renewalOf := Function.update world.renewalOf renewal.key none
    bridges := Function.update world.bridges renewal.key none }.cancelLoop t).setRenewal r renewal .finished

end World

/-- `windsUp` and `renewalEnds`: a loop or renewal that was told to stop is done. `dies`: a loop ends by itself. -/
inductive Action where
  | start (key : Key) (bridge : Bridge)
  | stop (key : Key)
  | resume (call : Nat) (ok : Bool)
  | windsUp (task : Nat)
  | dies (task : Nat)
  | wake (renewal : Nat)
  | renewed (renewal : Nat) (ok : Bool)
  | released (renewal : Nat)
  | renewalEnds (renewal : Nat)

def renewalStep (world : World) (r : Nat) (renewal : Renewal) (action : Action) : World :=
  match action,renewal.phase with
  | .wake _,.sleeping => world.wakes r renewal
  | .renewed _ ok,.renewing t => if ok then world.setRenewal r renewal .sleeping else world.givesUp r renewal t
  | .released _,.releasing => world.setRenewal r renewal .finished
  | _,_ => world

def step (world : World) (action : Action) : World :=
  match action with
  | .start key bridge =>
    let (world,phase) := world.beginStart key bridge
    { world with calls := world.calls ++ [⟨key,phase⟩] }
  | .stop key =>
    let (world,phase) := world.beginStop key none
    { world with calls := world.calls ++ [⟨key,phase⟩] }
  | .resume c ok =>
    match world.calls[c]? with
    | some call =>
      match world.goOn call.key ok call.phase with
      | some (world,phase) => { world with calls := world.calls.set c ⟨call.key,phase⟩ }
      | none => world
    | none => world
  | .windsUp t =>
    match world.loops[t]? with
    | some loop => if loop.state = .told then { world with loops := world.loops.set t ⟨loop.key,.cancelled⟩ } else world
    | none => world
  | .dies t =>
    match world.loops[t]? with
    | some loop => if loop.state = .running then { world with loops := world.loops.set t ⟨loop.key,.died⟩ } else world
    | none => world
  | .renewalEnds r =>
    match world.renewals[r]? with
    | some renewal => if renewal.told then world.setRenewal r renewal .finished else world
    | none => world
  | .wake r | .renewed r _ | .released r =>
    match world.renewals[r]? with
    | some renewal => if renewal.told then world else renewalStep world r renewal action
    | none => world

def idle : World := ⟨fun _ => none,fun _ => none,fun _ => none,[],[],[],[]⟩

def Free (world : World) (key : Key) : Prop :=
  (∀ call ∈ world.calls, call.key = key → call.phase = .returned) ∧
  ∀ loop ∈ world.loops, loop.key = key → loop.state ≠ .told

instance (world : World) (key : Key) : Decidable (Free world key) := inferInstanceAs (Decidable (_ ∧ _))

def Careful (world : World) : Action → Prop
  | .start key _ | .stop key => Free world key
  | .dies _ => False
  | .resume _ _ | .windsUp _ | .wake _ | .renewed _ _ | .released _ | .renewalEnds _ => True

instance (world : World) (action : Action) : Decidable (Careful world action) := by
  cases action <;> unfold Careful <;> infer_instance

def Quiet (world : World) (key : Key) : Prop :=
  world.tasks key = none ∧
    ∀ (t : Nat) (loop : Loop), world.loops[t]? = some loop → loop.key = key → loop.state.alive = false

def Settled (world : World) (key : Key) : Prop :=
  ∀ (t : Nat) (loop : Loop), world.loops[t]? = some loop → loop.key = key → loop.state ≠ .told

/-- The running loop of a key is the one recorded, one at most is alive, the renewal at work looks after it, and no
    loop outlives a stop. -/
structure Base (world : World) (key : Key) : Prop where
  recorded : ∀ t, world.tasks key = some t → ∃ loop, world.loops[t]? = some loop ∧ loop.key = key ∧
    loop.state = .running
  known : ∀ (t : Nat) (loop : Loop), world.loops[t]? = some loop → loop.key = key → loop.state = .running →
    world.tasks key = some t
  one : ∀ (t u : Nat) (loop other : Loop), world.loops[t]? = some loop → world.loops[u]? = some other →
    loop.key = key → other.key = key → loop.state.alive = true → other.state.alive = true → t = u
  active : ∀ (r : Nat) (renewal : Renewal), world.renewals[r]? = some renewal → renewal.key = key →
    renewal.active = true → world.renewalOf key = some r ∧
      ∃ t, world.tasks key = some t ∧ ∀ u, renewal.phase = .renewing u → u = t
  entry : ∀ r, world.renewalOf key = some r → ∃ renewal, world.renewals[r]? = some renewal ∧ renewal.key = key
  bounded : ∀ n, (key,n) ∈ world.stopped → n ≤ world.loops.length
  stops : ∀ n, (key,n) ∈ world.stopped → ∀ (t : Nat) (loop : Loop), t < n → world.loops[t]? = some loop →
    loop.key = key → loop.state.alive = false

def Busy (world : World) (key : Key) : Phase → Prop
  | .awaitRenewal _ _ => world.renewalOf key = none ∧ Settled world key
  | .awaitTask t _ => world.tasks key = none ∧
    ∀ (u : Nat) (loop : Loop), world.loops[u]? = some loop → loop.key = key → loop.state.alive = true → u = t
  | .awaitRelease _ | .awaitLease _ => Quiet world key
  | .returned => True

structure Same (world world' : World) (key : Key) : Prop where
  tasks : world'.tasks key = world.tasks key
  renewalOf : world'.renewalOf key = world.renewalOf key
  loops : ∀ (t : Nat) (loop : Loop), loop.key = key → (world'.loops[t]? = some loop ↔ world.loops[t]? = some loop)
  renewals : ∀ (r : Nat) (renewal : Renewal), renewal.key = key →
    (world'.renewals[r]? = some renewal ↔ world.renewals[r]? = some renewal)
  more : world.loops.length ≤ world'.loops.length
  stopped : ∀ n, (key,n) ∈ world'.stopped ↔ (key,n) ∈ world.stopped

section
variable {world world' : World} {key : Key}

theorem Same.refl (world : World) (key : Key) : Same world world key :=
  ⟨rfl,rfl,fun _ _ _ => Iff.rfl,fun _ _ _ => Iff.rfl,Nat.le_refl _,fun _ => Iff.rfl⟩

theorem Same.trans {world'' : World} (first : Same world world' key) (second : Same world' world'' key) :
    Same world world'' key :=
  ⟨second.tasks.trans first.tasks,second.renewalOf.trans first.renewalOf,
    fun t loop own => (second.loops t loop own).trans (first.loops t loop own),
    fun r renewal own => (second.renewals r renewal own).trans (first.renewals r renewal own),
    Nat.le_trans first.more second.more,fun n => (second.stopped n).trans (first.stopped n)⟩

theorem Base.same (base : Base world key) (same : Same world world' key) : Base world' key := by
  obtain ⟨recorded,known,one,active,entry,bounded,stops⟩ := base
  obtain ⟨tasks,renewalOf,loops,renewals,more,stopped⟩ := same
  constructor <;> grind -linarith only

variable {phase : Phase} {α : Type} {out : World × Phase} {r : Nat} {renewal : Renewal}

theorem Busy.same (busy : Busy world key phase) (same : Same world world' key) : Busy world' key phase := by
  obtain ⟨tasks,renewalOf,loops,renewals,more,stopped⟩ := same
  cases phase <;> grind -linarith only [Busy,Quiet,Settled]

theorem Same.recalls (same : Same world world' key) (calls : List Call) :
    Same world { world' with calls := calls } key :=
  ⟨same.tasks,same.renewalOf,same.loops,same.renewals,same.more,same.stopped⟩

theorem Base.recalls (base : Base world key) (calls : List Call) : Base { world with calls := calls } key :=
  base.same ((Same.refl world key).recalls calls)

theorem Busy.recalls (busy : Busy world key phase) (calls : List Call) : Busy { world with calls := calls } key phase :=
  busy.same ((Same.refl world key).recalls calls)

theorem set_elsewhere {xs : List α} {k j : Nat} {old next other : α} (keyOf : α → Key) (found : xs[k]? = some old)
    (keeps : keyOf next = keyOf old) (apart : keyOf other ≠ keyOf old) : (xs.set k next)[j]? = some other ↔
    xs[j]? = some other := by grind -linarith

theorem append_elsewhere {xs : List α} {j : Nat} {last other : α} (keyOf : α → Key) (apart : keyOf other ≠ keyOf last) :
    (xs ++ [last])[j]? = some other ↔ xs[j]? = some other := by grind -linarith

theorem modify_found {xs : List α} {k : Nat} {old : α} (f : α → α) (found : xs[k]? = some old) :
    xs.modify k f = xs.set k (f old) := by
  refine ext_getElem? fun j => ?_
  grind -linarith

structure Ran (world : World) (key : Key) (out : World × Phase) : Prop where
  base : Base out.1 key
  busy : Busy out.1 key out.2
  others : ∀ other, other ≠ key → Same world out.1 other
  calls : out.1.calls = world.calls

theorem Ran.after (ran : Ran world' key out) (before : ∀ other, other ≠ key → Same world world' other)
    (calls : world'.calls = world.calls) : Ran world key out :=
  ⟨ran.base,ran.busy,fun other apart => (before other apart).trans (ran.others other apart),ran.calls.trans calls⟩

section
variable (base : Base world key)
include base

theorem ran_nothing (busy : Busy world key phase) : Ran world key (world,phase) :=
  ⟨base,busy,fun other _ => Same.refl world other,rfl⟩

theorem ran_returned : Ran world key (world,.returned) := ran_nothing base trivial

section
variable (quiet : Quiet world key)
include quiet

theorem create_loop (bridge : Bridge) : let world' := { world with
      loops := world.loops ++ [⟨key,.running⟩]
      tasks := update world.tasks key (some world.loops.length)
      bridges := update world.bridges key (some bridge) }
    Base world' key ∧ ∀ other, other ≠ key → Same world world' other := by
  intro world'
  obtain ⟨recorded,known,one,active,entry,bounded,stops⟩ := base
  obtain ⟨none_,ended⟩ := quiet
  have now : world'.tasks key = some world.loops.length := update_self ..
  have last : ∀ (t : Nat) (loop : Loop), world'.loops[t]? = some loop → loop.key = key → loop.state.alive = true →
      t = world.loops.length := by
    refine all_append (fun t loop old own alive => ?_) fun _ _ => rfl
    cases (ended t loop old own).symm.trans alive
  refine ⟨⟨?_,?_,?_,?_,entry,?_,?_⟩,fun other apart => ?_⟩
  · intro t is
    cases now.symm.trans is
    exact ⟨⟨key,.running⟩,List.getElem?_concat_length,rfl,rfl⟩
  · refine all_append (fun t loop old own running => ?_) fun _ _ => now
    cases none_.symm.trans (known t loop old own running)
  · intro t u loop other found found' own own' alive alive'
    exact (last t loop found own alive).trans (last u other found' own' alive').symm
  · intro r renewal found own goes
    obtain ⟨_,t,recorded,_⟩ := active r renewal found own goes
    cases none_.symm.trans recorded
  · intro n member; exact Nat.le_trans (bounded n member) (by simp [world'])
  · intro n member t loop less found own
    by_contra alive
    have here := last t loop found own (by simpa using alive)
    exact absurd (bounded n member) (by omega)
  · refine ⟨update_of_ne apart ..,rfl,?_,fun _ _ _ => Iff.rfl,by simp [world'],fun _ => Iff.rfl⟩
    intro t loop own; exact append_elsewhere Loop.key (by rw [own]; exact apart)

theorem create_ran (bridge : Bridge) : Ran world key (world.create key bridge,.returned) := by
  obtain ⟨based,others⟩ := create_loop base quiet bridge
  unfold World.create
  split
  · refine ⟨⟨based.recorded,based.known,based.one,?_,?_,based.bounded,based.stops⟩,trivial,fun other apart => ?_,rfl⟩
    · refine all_append (fun r renewal old own active => ?_) fun _ _ => ?_
      · obtain ⟨_,t,recorded,_⟩ := base.active r renewal old own active
        cases quiet.1.symm.trans recorded
      · exact ⟨update_self ..,world.loops.length,update_self ..,nofun⟩
    · intro r entry
      cases (update_self key (some world.renewals.length) world.renewalOf).symm.trans entry
      exact ⟨⟨key,.sleeping,false⟩,List.getElem?_concat_length,rfl⟩
    · have same := others other apart
      refine ⟨same.tasks,update_of_ne apart ..,same.loops,?_,same.more,same.stopped⟩
      exact fun r renewal own => append_elsewhere Renewal.key (by rw [own]; exact apart)
  · exact ⟨based,trivial,others,rfl⟩

theorem acquireOrCreate_ran (bridge : Bridge) :
    Ran world key (world.acquireOrCreate key bridge) := by
  unfold World.acquireOrCreate
  split
  · exact ran_nothing base quiet
  · exact create_ran base quiet bridge

theorem stopReturns_ran (next : Option Bridge) :
    Ran world key (world.stopReturns key next) := by
  have noted : Base { world with stopped := world.stopped ++ [(key,world.loops.length)] } key := by
    refine ⟨base.recorded,base.known,base.one,base.active,base.entry,?_,fun n _ t loop _ => quiet.2 t loop⟩
    grind -linarith only [mem_append,mem_singleton,cases Base]
  have others : ∀ other, other ≠ key →
      Same world { world with stopped := world.stopped ++ [(key,world.loops.length)] } other := by
    intro other apart
    refine ⟨rfl,rfl,fun _ _ _ => Iff.rfl,fun _ _ _ => Iff.rfl,Nat.le_refl _,?_⟩
    intro n
    simp [apart]
  cases next with
  | none => exact (ran_returned noted).after others rfl
  | some bridge => exact (acquireOrCreate_ran noted quiet bridge).after others rfl

theorem afterTask_ran (t : Nat) (next : Option Bridge) :
    Ran world key (world.afterTask key t next) := by
  unfold World.afterTask
  split
  · exact ran_returned base
  · split
    · exact ran_nothing base quiet
    · exact stopReturns_ran base quiet next

end

end

theorem popped_base {t : Nat} {loop : Loop} (base : Base world key) (recorded : world.tasks key = some t)
    (found : world.loops[t]? = some loop) (own : loop.key = key)
    (tasks : world'.tasks = update world.tasks key none)
    (loops : world'.loops = world.loops.set t ⟨loop.key,.told⟩) (stopped : world'.stopped = world.stopped)
    (resting : ∀ (r : Nat) (renewal : Renewal), world'.renewals[r]? = some renewal → renewal.key = key →
      renewal.active ≠ true)
    (entry : ∀ r, world'.renewalOf key = some r → ∃ renewal, world'.renewals[r]? = some renewal ∧ renewal.key = key) :
    Base world' key ∧ world'.tasks key = none ∧
      ∀ (u : Nat) (other : Loop), world'.loops[u]? = some other → other.key = key → other.state.alive = true →
        u = t := by
  have none_ : world'.tasks key = none := by
    rw [tasks]; exact update_self ..
  obtain ⟨records,known,one,active,entries,bounded,stops⟩ := base
  have running : loop.state = .running := by
    obtain ⟨same,there,_,running⟩ := records t recorded
    rw [Option.some.inj (found.symm.trans there)]
    exact running
  have only : ∀ (u : Nat) (other : Loop), world'.loops[u]? = some other → other.key = key →
      other.state.alive = true → u = t := by
    rw [loops]
    refine all_set (fun u other _ old own' alive => ?_) fun _ _ => rfl
    exact one u t other loop old found own' own alive (by rw [running]; rfl)
  refine ⟨⟨?_,?_,?_,?_,entry,?_,?_⟩,none_,only⟩
  · simp [none_]
  -- it would be the recorded loop, and that one has been told
  · rw [loops]
    refine all_set (fun u other apart old own' running' => ?_) nofun
    exact absurd (Option.some.inj ((known u other old own' running').symm.trans recorded)) apart
  · intro u v loop other found found' own own' alive alive'
    exact (only u loop found own alive).trans (only v other found' own' alive').symm
  · exact fun r renewal found own' goes => absurd goes (resting r renewal found own')
  · rw [stopped,loops,length_set]; exact bounded
  · intro n member u other less there own'
    by_contra alive
    cases only u other there own' (by simpa using alive)
    have ended := stops n (stopped ▸ member) t loop less found own
    rw [running] at ended; cases ended

section
variable (base : Base world key) (settled : Settled world key)
include base settled

theorem quiet_of_none (none_ : world.tasks key = none) : Quiet world key := by
  refine ⟨none_,fun t loop found own => ?_⟩
  have known := base.known t loop found own
  have told := settled t loop found own
  cases state : loop.state <;> grind -linarith only [LoopState.alive]

theorem takeTask_ran (resting : world.renewalOf key = none)
    (next : Option Bridge) : Ran world key (world.takeTask key next) := by
  unfold World.takeTask
  cases recorded : world.tasks key with
  | none => exact stopReturns_ran base (quiet_of_none base settled recorded) next
  | some t =>
    obtain ⟨loop,found,own,running⟩ := base.recorded t recorded
    have set_ : world.loops.modify t (fun loop => { loop with state := loop.state.cancel }) =
        world.loops.set t ⟨loop.key,.told⟩ := by
      rw [modify_found _ found,running]; rfl
    have told : (world.loops.set t ⟨loop.key,.told⟩)[t]? = some ⟨loop.key,.told⟩ := by
      rw [List.getElem?_set_self',found]; rfl
    dsimp only [World.cancelLoop]
    rw [set_,if_pos (by rw [World.loopAlive,told]; rfl)]
    obtain ⟨based,none_,only⟩ := @popped_base world
      { world with tasks := update world.tasks key none, loops := world.loops.set t ⟨loop.key,.told⟩ } key t
      loop base recorded found own rfl rfl rfl (by
        intro r renewal there mine active
        rw [(base.active r renewal there mine active).1] at resting
        cases resting) base.entry
    refine ⟨based,⟨none_,only⟩,?_,rfl⟩
    intro other apart
    refine ⟨update_of_ne apart ..,rfl,?_,fun _ _ _ => Iff.rfl,by simp,fun _ => Iff.rfl⟩
    intro u other' own'; exact set_elsewhere Loop.key found rfl (by rw [own,own']; exact apart)

theorem beginStop_ran (next : Option Bridge) : Ran world key (world.beginStop key next) := by
  have gone : update world.renewalOf key none key = none := update_self ..
  -- once its entry is popped, the renewal of the key must be resting or told to stop
  have popped : ∀ renewals : List Renewal, (∀ (r : Nat) (renewal : Renewal), renewals[r]? = some renewal →
      renewal.key = key → renewal.active ≠ true) → Base { world with
        bridges := update world.bridges key none
        renewalOf := update world.renewalOf key none
        renewals := renewals } key := by
    intro renewals resting
    refine ⟨base.recorded,base.known,base.one,?_,?_,base.bounded,base.stops⟩
    · exact fun r renewal found own active => absurd active (resting r renewal found own)
    · intro r entry
      cases gone.symm.trans entry
  have others : ∀ other, other ≠ key → Same world { world with
      bridges := update world.bridges key none
      renewalOf := update world.renewalOf key none } other := by
    intro other apart
    exact ⟨rfl,update_of_ne apart ..,fun _ _ _ => Iff.rfl,fun _ _ _ => Iff.rfl,Nat.le_refl _,fun _ => Iff.rfl⟩
  unfold World.beginStop
  cases entry : world.renewalOf key with
  | none =>
    have resting := base.active
    exact (takeTask_ran (popped world.renewals (by grind -linarith only)) settled gone next).after others rfl
  | some r =>
    have only := base.active
    obtain ⟨renewal,there,mine⟩ := base.entry r entry
    dsimp only
    by_cases finished : renewal.phase = .finished
    · rw [if_neg (by simp [there,finished])]
      refine (takeTask_ran (popped world.renewals ?_) settled gone next).after others rfl
      grind -linarith only [Renewal.active]
    · rw [if_pos (by simp [there,finished])]
      have set_ : world.renewals.modify r (fun renewal => { renewal with told := true }) =
          world.renewals.set r { renewal with told := true } := modify_found _ there
      dsimp only [World.cancelRenewal]
      rw [set_]
      refine ⟨popped _ ?_,⟨gone,settled⟩,?_,rfl⟩
      · refine all_set (fun q other apart old own active => ?_) fun _ => by simp [Renewal.active]
        exact apart (Option.some.inj ((only q other old own active).1.symm.trans entry))
      · intro other apart
        have same := others other apart
        refine ⟨same.tasks,same.renewalOf,same.loops,fun q other' own' => ?_,same.more,same.stopped⟩
        exact set_elsewhere Renewal.key there rfl (by rw [mine,own']; exact apart)

theorem beginStart_ran (bridge : Bridge) : Ran world key (world.beginStart key bridge) := by
  unfold World.beginStart
  split
  · exact ran_returned base
  · split
    · split
      · exact ran_returned base
      · exact beginStop_ran base settled (some bridge)
    · -- a recorded loop would be running
      have none_ : world.tasks key = none := by
        cases recorded : world.tasks key <;> grind -linarith [World.isRunning,World.loopAlive,LoopState.alive,
          cases Base]
      exact acquireOrCreate_ran base (quiet_of_none base settled none_) bridge

end

theorem goOn_ran {ok : Bool} (base : Base world key) (busy : Busy world key phase)
    (goes : world.goOn key ok phase = some out) : Ran world key out := by
  cases phase with
  | awaitRenewal r next => grind -linarith only [World.goOn,takeTask_ran,Busy]
  | awaitTask t next =>
    simp only [World.goOn] at goes
    split at goes
    · cases goes
    · cases goes
      refine afterTask_ran base ⟨busy.1,fun u loop found own => ?_⟩ t next
      have only := busy.2 u loop found own
      grind -linarith [World.loopAlive]
  | awaitRelease next => cases goes; exact stopReturns_ran base busy next
  | awaitLease bridge =>
    cases goes
    split
    · exact create_ran base busy bridge
    · exact ran_returned base
  | returned => cases goes

structure Sound (world : World) (key : Key) : Prop where
  base : Base world key
  alone : ∀ (c d : Nat) (call other : Call), world.calls[c]? = some call → world.calls[d]? = some other →
    call.key = key → other.key = key → call.phase ≠ .returned → other.phase ≠ .returned → c = d
  busy : ∀ (c : Nat) (call : Call), world.calls[c]? = some call → call.key = key → Busy world key call.phase

theorem sound_step {own : Key} (world' : World) (sound : ∀ key, Sound world key) (calls : world'.calls = world.calls)
    (others : ∀ other, other ≠ own → Same world world' other) (base : Base world' own)
    (busy : ∀ phase, Busy world own phase → Busy world' own phase) (key : Key) : Sound world' key := by
  obtain ⟨based,alone,waits⟩ := sound key
  by_cases here : key = own
  · subst here
    exact ⟨base,calls ▸ alone,calls ▸ fun c call found mine => busy _ (waits c call found mine)⟩
  · have same := others key here
    exact ⟨based.same same,calls ▸ alone,calls ▸ fun c call found mine => (waits c call found mine).same same⟩

section
variable (sound : ∀ key, Sound world key)
include sound

theorem sound_begins {own : Key} (free : Free world own)
    (ran : Ran world own out) (key : Key) : Sound { out.1 with calls := out.1.calls ++ [⟨own,out.2⟩] } key := by
  rw [ran.calls]
  obtain ⟨based,alone,waits⟩ := sound key
  have ended : ∀ (c : Nat) (call : Call), world.calls[c]? = some call → call.key = own → call.phase = .returned :=
    fun c call found => free.1 call (mem_of_getElem? found)
  by_cases here : key = own
  · subst here
    have last : ∀ (c : Nat) (call : Call), (world.calls ++ [⟨key,out.2⟩])[c]? = some call → call.key = key →
        call.phase ≠ .returned → c = world.calls.length :=
      all_append (fun c call old mine goes => absurd (ended c call old mine) goes) fun _ _ => rfl
    refine ⟨ran.base.recalls _,?_,?_⟩
    · intro c d call other found found' mine mine' goes goes'
      exact (last c call found mine goes).trans (last d other found' mine' goes').symm
    · refine all_append (fun c call old mine => ?_) fun _ => ran.busy.recalls _
      rw [ended c call old mine]
      trivial
  · have same := (ran.others key here).recalls (world.calls ++ [⟨own,out.2⟩])
    have old : ∀ (c : Nat) (call : Call), call.key = key → (world.calls ++ [⟨own,out.2⟩])[c]? = some call →
        world.calls[c]? = some call :=
      fun c call mine => (append_elsewhere Call.key (by rw [mine]; exact here)).mp
    refine ⟨based.same same,?_,?_⟩
    · exact fun c d call other found found' mine mine' =>
        alone c d call other (old c call mine found) (old d other mine' found') mine mine'
    · exact all_append (fun c call old mine => (waits c call old mine).same same) fun mine => absurd mine.symm here

theorem sound_resumes {c : Nat} {call : Call}
    (there : world.calls[c]? = some call) (progress : call.phase ≠ .returned) (ran : Ran world call.key out)
    (key : Key) : Sound { out.1 with calls := out.1.calls.set c ⟨call.key,out.2⟩ } key := by
  rw [ran.calls]
  obtain ⟨based,alone,waits⟩ := sound key
  by_cases here : key = call.key
  · subst here
    have others : ∀ (d : Nat) (other : Call), world.calls[d]? = some other → other.key = call.key → d ≠ c →
        other.phase = .returned := by
      intro d other found mine apart
      by_contra goes
      exact apart (alone d c other call found there mine rfl goes progress)
    have only : ∀ (d : Nat) (other : Call), (world.calls.set c ⟨call.key,out.2⟩)[d]? = some other →
        other.key = call.key → other.phase ≠ .returned → d = c :=
      all_set (fun d other apart old mine goes => absurd (others d other old mine apart) goes) fun _ _ => rfl
    refine ⟨ran.base.recalls _,?_,?_⟩
    · intro d e first second found found' mine mine' goes goes'
      exact (only d first found mine goes).trans (only e second found' mine' goes').symm
    · refine all_set (fun d other apart old mine => ?_) fun _ => ran.busy.recalls _
      rw [others d other old mine apart]
      trivial
  · have same := (ran.others key here).recalls (world.calls.set c ⟨call.key,out.2⟩)
    have old : ∀ (d : Nat) (other : Call), other.key = key → (world.calls.set c ⟨call.key,out.2⟩)[d]? = some other →
        world.calls[d]? = some other :=
      fun d other mine => (set_elsewhere Call.key there (by rfl) (by rw [mine]; exact here)).mp
    refine ⟨based.same same,?_,?_⟩
    · exact fun d e first second found found' mine mine' =>
        alone d e first second (old d first mine found) (old e second mine' found') mine mine'
    · exact all_set (fun d other _ old mine => (waits d other old mine).same same) fun mine => absurd mine.symm here

theorem sound_windsUp {t : Nat} {loop : Loop} (there : world.loops[t]? = some loop)
    (told : loop.state = .told) (key : Key) :
    Sound { world with loops := world.loops.set t ⟨loop.key,.cancelled⟩ } key := by
  obtain ⟨recorded,known,one,active,entry,bounded,stops⟩ := (sound loop.key).base
  have old : ∀ (u : Nat) (other : Loop), (world.loops.set t ⟨loop.key,.cancelled⟩)[u]? = some other →
      other.state.alive = true → world.loops[u]? = some other := all_set (fun _ _ _ old _ => old) nofun
  refine sound_step { world with loops := world.loops.set t ⟨loop.key,.cancelled⟩ } sound rfl (fun other apart => ?_)
    ⟨?_,?_,?_,active,entry,?_,?_⟩ (fun phase busy => ?_) key
  · refine ⟨rfl,rfl,?_,fun _ _ _ => Iff.rfl,by simp,fun _ => Iff.rfl⟩
    exact fun u other' mine => set_elsewhere Loop.key there rfl (by rw [mine]; exact apart)
  · intro u is
    obtain ⟨other,found,own,running⟩ := recorded u is
    have apart : t ≠ u := by
      rintro rfl
      rw [Option.some.inj (found.symm.trans there),told] at running; cases running
    exact ⟨other,(getElem?_set_ne apart).trans found,own,running⟩
  · exact all_set (fun u other _ found mine running => known u other found mine running) nofun
  · exact fun u v first second found found' mine mine' alive alive' =>
      one u v first second (old u first found alive) (old v second found' alive') mine mine' alive alive'
  · simpa using bounded
  · intro n member u other less found mine
    by_contra alive
    exact alive (stops n member u other less (old u other found (by simpa using alive)) mine)
  · cases phase with
    | awaitRenewal q next => exact ⟨busy.1,all_set (fun u other _ found mine => busy.2 u other found mine) nofun⟩
    | awaitTask u next => exact ⟨busy.1,fun v other found mine alive => busy.2 v other (old v other found alive) mine alive⟩
    | awaitRelease next | awaitLease bridge =>
      exact ⟨busy.1,all_set (fun u other _ found mine => busy.2 u other found mine) fun _ => rfl⟩
    | returned => trivial

section
variable (there : world.renewals[r]? = some renewal)
include there

theorem sound_renewal {phase : RenewalPhase}
    (looks : { renewal with phase := phase }.active = true → renewal.active = true ∧
      ∀ u, phase = .renewing u → world.tasks renewal.key = some u) (key : Key) :
    Sound (world.setRenewal r renewal phase) key := by
  have base := (sound renewal.key).base
  refine sound_step (world.setRenewal r renewal phase) sound rfl (fun other apart => ?_)
    ⟨base.recorded,base.known,base.one,?_,?_,base.bounded,base.stops⟩ (fun phase busy => ?_) key
  · refine ⟨rfl,rfl,fun _ _ _ => Iff.rfl,?_,Nat.le_refl _,fun _ => Iff.rfl⟩
    exact fun q other' mine => set_elsewhere Renewal.key there rfl (by rw [mine]; exact apart)
  · refine all_set (fun q other _ old mine active => base.active q other old mine active) fun mine active => ?_
    obtain ⟨was,watches⟩ := looks active
    obtain ⟨entry,t,recorded,_⟩ := base.active r renewal there rfl was
    exact ⟨entry,t,recorded,fun u renewing => Option.some.inj ((watches u renewing).symm.trans recorded)⟩
  · intro q entry
    have found := base.entry q entry
    grind -linarith [World.setRenewal]
  · cases phase <;> exact busy

theorem sound_givesUp {t : Nat}
    (awake : renewal.told = false) (renewing : renewal.phase = .renewing t) (key : Key) :
    Sound (world.givesUp r renewal t) key := by
  have base := (sound renewal.key).base
  have active : renewal.active = true := by simp [Renewal.active,awake,renewing]
  obtain ⟨entry,u,recorded,watches⟩ := base.active r renewal there rfl active
  cases watches t renewing
  obtain ⟨loop,found,own,running⟩ := base.recorded t recorded
  have loops : (world.givesUp r renewal t).loops = world.loops.set t ⟨loop.key,.told⟩ := by
    simp only [World.givesUp,World.cancelLoop]
    rw [modify_found _ found,running]; rfl
  have gone : update world.renewalOf renewal.key none renewal.key = none := update_self ..
  obtain ⟨based,_,_⟩ := @popped_base world (world.givesUp r renewal t) renewal.key t loop base recorded found own rfl
    loops rfl (by
      refine all_set (fun q other apart old mine goes => ?_) fun _ => by simp [Renewal.active]
      exact apart (Option.some.inj ((base.active q other old mine goes).1.symm.trans entry)))
    (fun q is => by cases gone.symm.trans is)
  refine sound_step (world.givesUp r renewal t) sound rfl ?_ based ?_ key
  · intro other apart
    refine ⟨update_of_ne apart ..,update_of_ne apart ..,?_,?_,?_,fun _ => Iff.rfl⟩
    · intro v other' mine
      rw [loops]; exact set_elsewhere Loop.key found rfl (by rw [own,mine]; exact apart)
    · intro q other' mine; exact set_elsewhere Renewal.key there rfl (by rw [mine]; exact apart)
    · exact Nat.le_of_eq (by rw [loops,length_set])
  -- a call in progress would have told the renewal to stop, or popped its loop
  · intro phase busy
    cases phase with
    | awaitRenewal q next => cases busy.1.symm.trans entry
    | awaitTask v next | awaitRelease next | awaitLease bridge => cases busy.1.symm.trans recorded
    | returned => trivial

theorem sound_renewalStep {action : Action}
    (awake : renewal.told = false) (key : Key) : Sound (renewalStep world r renewal action) key := by
  have base := (sound renewal.key).base
  unfold renewalStep
  grind -linarith [Renewal.active,World.isRunning,World.loopAlive,LoopState.alive,World.wakes,sound_renewal,
    sound_givesUp,cases Base]

end

end

theorem careful_step (action : Action) (sound : ∀ key, Sound world key) (careful : Careful world action) (key : Key) :
    Sound (step world action) key := by
  have settled : ∀ own, Free world own → Settled world own :=
    fun own free t loop found => free.2 loop (mem_of_getElem? found)
  cases action with
  | start own bridge =>
    exact sound_begins sound careful (beginStart_ran (sound own).base (settled own careful) bridge) key
  | stop own => exact sound_begins sound careful (beginStop_ran (sound own).base (settled own careful) none) key
  | resume c ok =>
    simp only [step]
    split
    · rename_i call there
      split
      · rename_i after phase goes
        have progress : call.phase ≠ .returned := fun ended => by simp [ended,World.goOn] at goes
        exact sound_resumes sound there progress
          (goOn_ran (sound call.key).base ((sound call.key).busy c call there rfl) goes) key
      · exact sound key
    · exact sound key
  | windsUp t => grind -linarith only [step,sound_windsUp]
  | dies t => exact absurd careful id
  | renewalEnds r => grind -linarith only [step,sound_renewal,Renewal.active]
  | wake r | renewed r _ | released r => grind -linarith only [step,sound_renewalStep]

theorem idle_sound (key : Key) : Sound idle key := by
  refine ⟨?_,?_,?_⟩
  · constructor <;> simp [idle]
  · simp [idle]
  · simp [idle]

end

/-- In every careful run, one loop at most is alive for a key, a loop that was not told to stop is the one recorded,
    and no loop that was started before a stop of its key had returned is alive after it. -/
theorem one_loop_per_key (actions : List Action) (careful : Permitted step Careful idle actions) :
    let world := reach step idle actions
    (∀ (t u : Nat) (loop other : Loop), world.loops[t]? = some loop → world.loops[u]? = some other →
      loop.key = other.key → loop.state.alive = true → other.state.alive = true → t = u) ∧
    (∀ (t : Nat) (loop : Loop), world.loops[t]? = some loop → loop.state = .running → world.tasks loop.key = some t) ∧
    (∀ (key : Key) (n : Nat), (key,n) ∈ world.stopped → ∀ (t : Nat) (loop : Loop), t < n →
      world.loops[t]? = some loop → loop.key = key → loop.state.alive = false) := by
  intro world
  have sound : ∀ key, Sound world key := @invariant_reach _ _ step (fun world => ∀ key, Sound world key) Careful
    (fun _ action sound careful => careful_step action sound careful) idle idle_sound actions careful
  refine ⟨?_,?_,?_⟩
  · intro t u loop other found found' same alive alive'
    exact (sound loop.key).base.one t u loop other found found' rfl same.symm alive alive'
  · intro t loop found running; exact (sound loop.key).base.known t loop found rfl running
  · intro key n stopped t loop before found own
    exact (sound key).base.stops n stopped t loop before found own

def discord : Key := ("discord",some "acme")

def gateway (name : Nat) : Bridge := ⟨name,true,false⟩

def orderlyCalls : List Action :=
  [.start discord (gateway 0),.resume 0 true,.wake 0,.renewed 0 true,.start discord (gateway 1),.renewalEnds 0,
    .resume 1 true,.windsUp 0,.resume 1 true,.resume 1 true,.resume 1 true,.stop discord,.renewalEnds 1,.resume 2 true,
    .windsUp 1,.resume 2 true,.resume 2 true]

theorem orderlyCalls_leave_no_loop :
    Permitted step Careful idle orderlyCalls ∧
    (reach step idle orderlyCalls).stopped = [(discord,1),(discord,2)] ∧
    (reach step idle orderlyCalls).loops = [⟨discord,.cancelled⟩,⟨discord,.cancelled⟩] ∧
    ∀ (t : Nat) (loop : Loop), t < 2 → (reach step idle orderlyCalls).loops[t]? = some loop → loop.key = discord →
      loop.state.alive = false := by
  have careful : Permitted step Careful idle orderlyCalls := by decide +kernel
  have stopped : (reach step idle orderlyCalls).stopped = [(discord,1),(discord,2)] := by decide +kernel
  exact ⟨careful,stopped,by decide +kernel,(one_loop_per_key orderlyCalls careful).2.2 discord 2 (by simp [stopped])⟩

def overlappingStarts : List Action :=
  [.start discord (gateway 0),.start discord (gateway 0),.resume 0 true,.resume 1 true]

/-- Both start a loop, and one of them is recorded; a stop ends that one and returns while the other runs. And a stop
    of a single loop leaves it alive and not recorded until it has wound down. -/
theorem overlapping_starts_leave_a_loop :
    let both := reach step idle overlappingStarts
    let after := reach step both [.stop discord,.renewalEnds 1,.resume 2 true,.windsUp 1,.resume 2 true,.resume 2 true]
    let stopping := reach step idle
      [.start discord (gateway 0),.resume 0 true,.stop discord,.renewalEnds 0,.resume 1 true]
    (both.loops = [⟨discord,.running⟩,⟨discord,.running⟩] ∧ both.tasks discord = some 1) ∧
    (after.stopped = [(discord,2)] ∧ after.loops = [⟨discord,.running⟩,⟨discord,.cancelled⟩] ∧
      after.tasks discord = none) ∧
    (stopping.loops = [⟨discord,.told⟩] ∧ stopping.tasks discord = none) := by decide +kernel

end Cowork.Ingress
