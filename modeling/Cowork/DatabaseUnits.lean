import Mathlib.Data.List.Count
import Cowork.Threads

/-!
Database units: `run_db` runs a function in a worker thread, for a caller that may stop
waiting. The caller, the unit's task and its thread take their steps in any order; the
hand-over (`giveUp`, `admit`) settles once whether the function runs
(`run_db_hands_over_once`).
-/
namespace Cowork.DatabaseUnits
open Transitions List Threads Nat

/-- How a unit ends: its function returned or, without a value, raised; a session's error; `DatabaseBusy`;
    `_Abandoned`. -/
inductive Outcome (ρ : Type) where
  | result (value : Option ρ)
  | failed
  | busy
  | abandoned
deriving DecidableEq

/-- The worker thread, in `_run_unit`. -/
inductive Thread (ρ : Type) where
  | idle
  | queued
  | connected
  | running
  | closing (outcome : Outcome ρ)
  | ended (outcome : Outcome ρ)

/-- The unit's own task, in `_unit_task`. -/
inductive UnitTask (ρ : Type) where
  | created
  | acquiring
  | holding
  | inThread
  | done (outcome : Outcome ρ)

/-- What the caller of `run_db` gets. -/
inductive Exit (ρ : Type) where
  | outcome (outcome : Outcome ρ)
  | cancelled
deriving DecidableEq

/-- The caller: in its first wait, the handler of a cancel, the wait that no cancel ends
    (`_finish_even_if_cancelled`), `_drain`, or gone. -/
inductive Caller (ρ : Type) where
  | waiting
  | handling
  | shielded
  | draining
  | left (exit : Exit ρ)
deriving DecidableEq

/-- A call of `run_db`, with how often the function was called and a slot was taken and given back. -/
structure Call (ρ : Type) where
  caller : Caller ρ
  cancelling : Bool
  unit : UnitTask ρ
  thread : Thread ρ
  admitted : Bool
  givenUp : Bool
  runs : Nat
  taken : Nat
  released : Nat

def Call.new {ρ : Type} : Call ρ :=
  { caller := .waiting, cancelling := false, unit := .created, thread := .idle, admitted := false, givenUp := false,
    runs := 0, taken := 0, released := 0 }

structure Slots where
  total : Option Nat
  borrowed : Nat

def Slots.free (slots : Slots) : Bool := slots.total.all fun total => slots.borrowed < total

inductive Checkout where
  | connected | timedOut | failed

inductive Moment (ρ : Type) where
  | cancel
  | deliver
  /-- The handler of the cancel gives up the unit, unless it was admitted. -/
  | giveUp
  | timeout
  | wake
  /-- The unit's task starts; it has an engine, or fails. -/
  | start (engine : Bool)
  | acquire
  | expire
  /-- The unit, with its slot, goes on to a thread, which starts or does not. -/
  | proceed (starts : Bool)
  | checkout (how : Checkout)
  /-- The thread asks whether the unit may run, and calls the function if so. -/
  | admits
  | finish (value : Option ρ)
  | close (clean : Bool)
  | collect

section
variable {ρ : Type}

/-- Where a wait in `_drain` leads: it ends only with the unit. -/
def Call.drained (call : Call ρ) : Caller ρ :=
  match call.unit with
  | .done _ => .left .cancelled
  | _ => .draining

def Call.deliver (call : Call ρ) : Call ρ :=
  if call.cancelling then
    match call.caller with
    | .waiting => { call with caller := .handling, cancelling := false }
    | .shielded => { call with caller := call.drained, cancelling := false }
    | .draining => { call with cancelling := false }
    | _ => call
  else call

/-- `give_up`, for a caller that was cancelled. -/
def Call.giveUp (call : Call ρ) : Call ρ :=
  match call.caller with
  | .handling =>
    if call.admitted then { call with caller := call.drained }
    else { call with givenUp := true, caller := .left .cancelled }
  | _ => call

/-- `give_up`, for a caller whose budget ran out. -/
def Call.timeout (call : Call ρ) : Call ρ :=
  match call.caller,call.unit with
  | .waiting,.done outcome => { call with caller := .left (.outcome outcome) }
  | .waiting,_ =>
    if call.admitted then { call with caller := .shielded }
    else { call with givenUp := true, caller := .left (.outcome .busy) }
  | _,_ => call

def Call.wake (call : Call ρ) : Call ρ :=
  match call.caller,call.unit with
  | .waiting,.done outcome | .shielded,.done outcome => { call with caller := .left (.outcome outcome) }
  | .draining,.done _ => { call with caller := .left .cancelled }
  | _,_ => call

def Call.release (call : Call ρ) (outcome : Outcome ρ) : Call ρ :=
  { call with unit := .done outcome, released := call.released + 1 }

/-- `admit`, and the call of the function. -/
def Call.admitUnit (call : Call ρ) : Call ρ :=
  match call.thread with
  | .connected =>
    if call.givenUp then { call with thread := .closing .abandoned }
    else { call with admitted := true, thread := .running, runs := call.runs + 1 }
  | _ => call

def Checkout.next : Checkout → Thread ρ
  | .connected => .connected
  | .timedOut => .ended .busy
  | .failed => .ended .failed

def move : Moment ρ → Slots → Call ρ → Slots × Call ρ
  | .cancel,slots,call => (slots,{ call with cancelling := true })
  | .deliver,slots,call => (slots,call.deliver)
  | .giveUp,slots,call => (slots,call.giveUp)
  | .timeout,slots,call => (slots,call.timeout)
  | .wake,slots,call => (slots,call.wake)
  | .start engine,slots,call =>
    match call.unit with
    | .created => (slots,{ call with unit := if engine then .acquiring else .done .failed })
    | _ => (slots,call)
  | .acquire,slots,call =>
    match call.unit with
    | .acquiring =>
      if slots.free then
        ({ slots with borrowed := slots.borrowed + 1 },{ call with unit := .holding, taken := call.taken + 1 })
      else (slots,call)
    | _ => (slots,call)
  | .expire,slots,call =>
    match call.unit with
    | .acquiring => (slots,{ call with unit := .done .busy })
    | _ => (slots,call)
  | .proceed starts,slots,call =>
    match call.unit with
    | .holding =>
      if call.givenUp then ({ slots with borrowed := slots.borrowed - 1 },call.release .abandoned)
      else if starts then (slots,{ call with unit := .inThread, thread := .queued })
      else ({ slots with borrowed := slots.borrowed - 1 },call.release .failed)
    | _ => (slots,call)
  | .checkout how,slots,call =>
    match call.thread with
    | .queued => (slots,{ call with thread := how.next })
    | _ => (slots,call)
  | .admits,slots,call => (slots,call.admitUnit)
  | .finish value,slots,call =>
    match call.thread with
    | .running => (slots,{ call with thread := .closing (.result value) })
    | _ => (slots,call)
  | .close clean,slots,call =>
    match call.thread with
    | .closing outcome => (slots,{ call with thread := .ended (if clean then outcome else .failed) })
    | _ => (slots,call)
  | .collect,slots,call =>
    match call.unit,call.thread with
    | .inThread,.ended outcome => ({ slots with borrowed := slots.borrowed - 1 },call.release outcome)
    | _,_ => (slots,call)

inductive Phase : UnitTask ρ → Thread ρ → Bool → Nat → Nat → Prop
  | created : Phase .created .idle false 0 0
  | acquiring : Phase .acquiring .idle false 0 0
  | holding : Phase .holding .idle false 1 0
  | queued : Phase .inThread .queued false 1 0
  | connected : Phase .inThread .connected false 1 0
  | running : Phase .inThread .running true 1 0
  | closing (outcome : Outcome ρ) (admitted : Bool) (fits : outcome = .busy → admitted = false) :
    Phase .inThread (.closing outcome) admitted 1 0
  | ended (outcome : Outcome ρ) (admitted : Bool) (fits : outcome = .busy → admitted = false) :
    Phase .inThread (.ended outcome) admitted 1 0
  | unstarted (outcome : Outcome ρ) (count : Nat) (once : count ≤ 1) : Phase (.done outcome) .idle false count count
  | done (outcome : Outcome ρ) (admitted : Bool) (fits : outcome = .busy → admitted = false) :
    Phase (.done outcome) (.ended outcome) admitted 1 1

def UnitTask.isDone : UnitTask ρ → Bool
  | .done _ => true
  | _ => false

def Call.stage (call : Call ρ) : Nat :=
  match call.unit,call.thread with
  | .created,_ => 0
  | .acquiring,_ => 1
  | .holding,_ => 2
  | .inThread,.idle | .inThread,.queued => 3
  | .inThread,.connected => 4
  | .inThread,.running => 5
  | .inThread,.closing _ => 6
  | .inThread,.ended _ => 7
  | .done _,_ => 8

structure Sound (call : Call ρ) : Prop where
  phase : Phase call.unit call.thread call.admitted call.taken call.released
  settled : call.givenUp = true → call.admitted = false
  counted : call.runs = if call.admitted then 1 else 0
  gone : ∀ exit, call.caller = .left exit → call.givenUp = true ∨ call.unit.isDone = true
  refused : call.caller = .left (.outcome .busy) → call.admitted = false

theorem sound_new : Sound (Call.new : Call ρ) :=
  ⟨.created,nofun,rfl,nofun,nofun⟩

variable {call next : Call ρ}

theorem busy_refused (sound : Sound call) (busy : call.unit = .done .busy) : call.admitted = false := by
  have phase := sound.phase
  grind only [cases Phase]

theorem drained_gone {exit : Exit ρ} (left : call.drained = .left exit) : exit = .cancelled ∧ call.unit.isDone = true := by
  grind only [Call.drained,UnitTask.isDone]

/-- A moment keeps the invariant of a call, its settled hand-over and the steps it took. -/
structure Moves (call next : Call ρ) : Prop where
  sound : Sound next
  givenUp : call.givenUp = true → next.givenUp = true
  done : call.unit.isDone = true → next.unit.isDone = true
  admitted : call.givenUp = true ∨ call.unit.isDone = true → next.admitted = call.admitted
  stage : call.stage ≤ next.stage

theorem moves_same (sound : Sound call) : Moves call call :=
  ⟨sound,id,id,fun _ => rfl,Nat.le_of_eq rfl⟩

theorem moves_caller (sound : Sound next) (unit : next.unit = call.unit) (thread : next.thread = call.thread)
    (admitted : next.admitted = call.admitted) (givenUp : call.givenUp = true → next.givenUp = true) : Moves call next := by
  refine ⟨sound,givenUp,by rw [unit]; exact id,fun _ => admitted,Nat.le_of_eq ?_⟩
  unfold Call.stage
  rw [unit,thread]

section
variable (sound : Sound call)
include sound

theorem moves_unit (phase : Phase next.unit next.thread next.admitted next.taken next.released)
    (caller : next.caller = call.caller) (givenUp : next.givenUp = call.givenUp)
    (admitted : next.admitted = call.admitted) (runs : next.runs = call.runs)
    (done : call.unit.isDone = true → next.unit.isDone = true) (stage : call.stage ≤ next.stage) : Moves call next := by
  refine ⟨⟨phase,?_,?_,?_,?_⟩,by rw [givenUp]; exact id,done,fun _ => admitted,stage⟩
  · rw [givenUp,admitted]; exact sound.settled
  · rw [runs,admitted]; exact sound.counted
  · intro exit left
    rw [givenUp]; exact (sound.gone exit (caller ▸ left)).imp_right done
  · rw [caller,admitted]; exact sound.refused

theorem moves_drained
    (shape : next = { call with caller := call.drained, cancelling := next.cancelling }) : Moves call next := by
  rw [shape]
  refine moves_caller ⟨sound.phase,sound.settled,sound.counted,?_,?_⟩ rfl rfl rfl id
  · intro exit left; exact .inr (drained_gone left).2
  · intro left
    cases (drained_gone left).1

theorem moves_deliver : Moves call call.deliver := by
  unfold Call.deliver
  split
  · split
    · exact moves_caller ⟨sound.phase,sound.settled,sound.counted,nofun,nofun⟩ rfl rfl rfl id
    · exact moves_drained sound rfl
    · rename_i drains
      refine moves_caller ⟨sound.phase,sound.settled,sound.counted,?_,?_⟩ rfl rfl rfl id
      · intro exit left
        cases drains.symm.trans left
      · intro left
        cases drains.symm.trans left
    · exact moves_same sound
  · exact moves_same sound

theorem moves_giveUp : Moves call call.giveUp := by
  unfold Call.giveUp
  split
  · split
    · exact moves_drained sound rfl
    · rename_i refused
      refine moves_caller ⟨sound.phase,?_,sound.counted,fun _ _ => .inl rfl,nofun⟩ rfl rfl rfl fun _ => rfl
      intro _
      simpa using refused
  · exact moves_same sound

theorem moves_outcome {outcome : Outcome ρ} (done : call.unit = .done outcome) :
    Moves call { call with caller := .left (.outcome outcome) } := by
  refine moves_caller ⟨sound.phase,sound.settled,sound.counted,fun _ _ => .inr (by rw [done]; rfl),?_⟩ rfl rfl rfl id
  intro left
  cases left
  exact (busy_refused sound done :)

theorem moves_timeout : Moves call call.timeout := by
  unfold Call.timeout
  split
  · rename_i done
    exact moves_outcome sound done
  · split
    · exact moves_caller ⟨sound.phase,sound.settled,sound.counted,nofun,nofun⟩ rfl rfl rfl id
    · rename_i refused
      have free : call.admitted = false := by simpa using refused
      exact moves_caller ⟨sound.phase,fun _ => free,sound.counted,fun _ _ => .inl rfl,fun _ => free⟩ rfl rfl rfl
        fun _ => rfl
  · exact moves_same sound

theorem moves_wake : Moves call call.wake := by
  unfold Call.wake
  split
  · rename_i done
    exact moves_outcome sound done
  · rename_i done
    exact moves_outcome sound done
  · rename_i done
    exact moves_caller ⟨sound.phase,sound.settled,sound.counted,fun _ _ => .inr (by rw [done]; rfl),nofun⟩ rfl rfl rfl
      id
  · exact moves_same sound

theorem moves_admit : Moves call call.admitUnit := by
  have phase := sound.phase
  obtain ⟨caller,cancelling,unit,thread,admitted,givenUp,runs,taken,released⟩ := call
  cases thread with
  | connected =>
    cases phase
    cases givenUp with
    | true => exact moves_unit sound (.closing _ _ nofun) rfl rfl rfl rfl id (le_of_ble_eq_true rfl)
    | false =>
      refine ⟨⟨.running,nofun,?_,sound.gone,?_⟩,nofun,nofun,?_,le_of_ble_eq_true rfl⟩
      · exact congrArg (· + 1) sound.counted
      · intro left
        rcases sound.gone _ left with given | done
        · cases given
        · cases done
      · rintro (given | done)
        · cases given
        · cases done
  | _ => exact moves_same sound

end

theorem moves (moment : Moment ρ) (slots : Slots) (sound : Sound call) : Moves call (move moment slots call).2 := by
  have phase := sound.phase
  obtain ⟨caller,cancelling,unit,thread,admitted,givenUp,runs,taken,released⟩ := call
  cases moment with
  | cancel => exact moves_caller ⟨sound.phase,sound.settled,sound.counted,sound.gone,sound.refused⟩ rfl rfl rfl id
  | deliver => exact moves_deliver sound
  | giveUp => exact moves_giveUp sound
  | timeout => exact moves_timeout sound
  | wake => exact moves_wake sound
  | start engine =>
    cases unit with
    | created =>
      cases phase
      cases engine with
      | true => exact moves_unit sound .acquiring rfl rfl rfl rfl nofun (le_of_ble_eq_true rfl)
      | false => exact moves_unit sound (.unstarted _ 0 (by decide)) rfl rfl rfl rfl nofun (le_of_ble_eq_true rfl)
    | _ => exact moves_same sound
  | acquire =>
    cases unit with
    | acquiring =>
      cases phase
      simp only [move]
      split
      · exact moves_unit sound .holding rfl rfl rfl rfl nofun (le_of_ble_eq_true rfl)
      · exact moves_same sound
    | _ => exact moves_same sound
  | expire =>
    cases unit with
    | acquiring =>
      cases phase
      exact moves_unit sound (.unstarted _ 0 (by decide)) rfl rfl rfl rfl nofun (le_of_ble_eq_true rfl)
    | _ => exact moves_same sound
  | proceed starts =>
    cases unit with
    | holding =>
      cases phase
      simp only [move]
      split
      · exact moves_unit sound (.unstarted _ 1 (by decide)) rfl rfl rfl rfl nofun (le_of_ble_eq_true rfl)
      · split
        · exact moves_unit sound .queued rfl rfl rfl rfl nofun (le_of_ble_eq_true rfl)
        · exact moves_unit sound (.unstarted _ 1 (by decide)) rfl rfl rfl rfl nofun (le_of_ble_eq_true rfl)
    | _ => exact moves_same sound
  | checkout how =>
    cases thread with
    | queued =>
      cases phase
      cases how with
      | connected => exact moves_unit sound .connected rfl rfl rfl rfl id (le_of_ble_eq_true rfl)
      | timedOut => exact moves_unit sound (.ended _ _ fun _ => rfl) rfl rfl rfl rfl id (le_of_ble_eq_true rfl)
      | failed => exact moves_unit sound (.ended _ _ nofun) rfl rfl rfl rfl id (le_of_ble_eq_true rfl)
    | _ => exact moves_same sound
  | admits => exact moves_admit sound
  | finish value =>
    cases thread with
    | running => cases phase; exact moves_unit sound (.closing _ _ nofun) rfl rfl rfl rfl id (le_of_ble_eq_true rfl)
    | _ => exact moves_same sound
  | close clean =>
    cases thread with
    | closing outcome =>
      cases phase with
      | closing _ _ fits =>
        refine moves_unit sound (.ended _ _ ?_) rfl rfl rfl rfl id (le_of_ble_eq_true rfl)
        cases clean with
        | true => exact fits
        | false => exact nofun
    | _ => exact moves_same sound
  | collect =>
    cases unit with
    | inThread =>
      cases thread with
      | ended outcome =>
        cases phase with
        | ended _ _ fits =>
          exact moves_unit sound (.done _ _ fits) rfl rfl rfl rfl (fun _ => rfl) (le_of_ble_eq_true rfl)
      | _ => exact moves_same sound
    | _ => exact moves_same sound

def Refused (call : Call ρ) : Prop :=
  Sound call ∧ call.admitted = false ∧ (call.givenUp = true ∨ call.unit.isDone = true)

theorem refused_runs (refused : Refused call) : call.runs = 0 := by
  rw [refused.1.counted,refused.2.1]
  rfl

theorem refused_move (moment : Moment ρ) (slots : Slots) (call : Call ρ) (refused : Refused call) :
    Refused (move moment slots call).2 := by
  obtain ⟨sound,free,settled⟩ := refused
  have moved := moves moment slots sound
  exact ⟨moved.sound,(moved.admitted settled).trans free,settled.imp moved.givenUp moved.done⟩

def Call.holds (call : Call ρ) : Bool :=
  match call.unit with
  | .holding | .inThread => true
  | _ => false

theorem slot_held (sound : Sound call) : call.taken = call.released + (if call.holds then 1 else 0) ∧ call.taken ≤ 1 := by
  have phase := sound.phase
  obtain ⟨caller,cancelling,unit,thread,admitted,givenUp,runs,taken,released⟩ := call
  cases phase with
  | unstarted _ _ once => exact ⟨rfl,once⟩
  | _ => exact ⟨rfl,le_of_ble_eq_true rfl⟩

theorem held_proceeds (sound : Sound call) (held : call.holds = true) (slots : Slots) : ∃ moment, call.stage <
    (move moment slots call).2.stage := by
  have phase := sound.phase
  obtain ⟨caller,cancelling,unit,thread,admitted,givenUp,runs,taken,released⟩ := call
  cases phase with
  | holding =>
    refine ⟨.proceed true,?_⟩
    cases givenUp <;> exact le_of_ble_eq_true rfl
  | queued => exact ⟨.checkout .connected,le_of_ble_eq_true rfl⟩
  | connected =>
    refine ⟨.admits,?_⟩
    cases givenUp <;> exact le_of_ble_eq_true rfl
  | running => exact ⟨.finish none,le_of_ble_eq_true rfl⟩
  | closing => exact ⟨.close true,le_of_ble_eq_true rfl⟩
  | ended => exact ⟨.collect,le_of_ble_eq_true rfl⟩
  | created | acquiring | unstarted | done => cases held

theorem gone_idle (sound : Sound call) {exit : Exit ρ} (left : call.caller = .left exit) : call.thread ≠ .running := by
  have phase := sound.phase
  have settled := sound.settled
  have gone := sound.gone exit left
  grind only [cases Phase,UnitTask.isDone]

/-- One moment of the calls on an event loop: a new call, or a moment of one of them. -/
abbrev Event (ρ : Type) := Threads.Turn Unit (Moment ρ) Empty

def step : Pool Slots (Call ρ) → Event ρ → Pool Slots (Call ρ) :=
  Threads.turn (fun _ _ => Call.new) move (fun never _ => nomatch never)

def start (total : Option Nat) : Pool Slots (Call ρ) := ⟨⟨total,0⟩,[]⟩

theorem slots_kept {slots : Slots} (unit : next.unit = call.unit) :
    slots.borrowed + (if call.holds then 1 else 0) = slots.borrowed + (if next.holds then 1 else 0) := by
  unfold Call.holds
  rw [unit]

@[simp] theorem deliver_unit (call : Call ρ) : call.deliver.unit = call.unit := by
  unfold Call.deliver
  repeat' split
  all_goals rfl

@[simp] theorem giveUp_unit (call : Call ρ) : call.giveUp.unit = call.unit := by
  unfold Call.giveUp
  repeat' split
  all_goals rfl

@[simp] theorem timeout_unit (call : Call ρ) : call.timeout.unit = call.unit := by
  unfold Call.timeout
  repeat' split
  all_goals rfl

@[simp] theorem wake_unit (call : Call ρ) : call.wake.unit = call.unit := by
  unfold Call.wake
  split <;> rfl

@[simp] theorem admit_unit (call : Call ρ) : call.admitUnit.unit = call.unit := by
  unfold Call.admitUnit
  repeat' split
  all_goals rfl

theorem slots_move (moment : Moment ρ) (slots : Slots) (held : call.holds = true → 0 < slots.borrowed) :
    (move moment slots call).1.total = slots.total ∧
      (move moment slots call).1.borrowed + (if call.holds then 1 else 0) =
        slots.borrowed + (if (move moment slots call).2.holds then 1 else 0) ∧
      ((move moment slots call).1.borrowed ≤ slots.borrowed ∨
        slots.free = true ∧ (move moment slots call).1.borrowed = slots.borrowed + 1) := by
  have kept (next : Call ρ) (unit : next.unit = call.unit) : slots.total = slots.total ∧
      slots.borrowed + (if call.holds then 1 else 0) = slots.borrowed + (if next.holds then 1 else 0) ∧
      (slots.borrowed ≤ slots.borrowed ∨ slots.free = true ∧ slots.borrowed = slots.borrowed + 1) :=
    ⟨rfl,slots_kept unit,.inl (Nat.le_of_eq rfl)⟩
  obtain ⟨caller,cancelling,unit,thread,admitted,givenUp,runs,taken,released⟩ := call
  cases moment with
  | cancel => exact kept _ rfl
  | deliver => exact kept _ (deliver_unit _)
  | giveUp => exact kept _ (giveUp_unit _)
  | timeout => exact kept _ (timeout_unit _)
  | wake => exact kept _ (wake_unit _)
  | admits => exact kept _ (admit_unit _)
  | start engine =>
    cases unit with
    | created => cases engine <;> exact ⟨rfl,rfl,.inl (Nat.le_of_eq rfl)⟩
    | _ => exact kept _ rfl
  | acquire =>
    cases unit with
    | acquiring =>
      simp only [move]
      split
      · rename_i free
        exact ⟨rfl,rfl,.inr ⟨free,rfl⟩⟩
      · exact kept _ rfl
    | _ => exact kept _ rfl
  | expire => grind only [move,Call.holds]
  | proceed starts =>
    cases unit with
    | holding =>
      simp only [move]
      grind only [Call.release,Call.holds]
    | _ => exact kept _ rfl
  | checkout how | finish value | close clean => cases thread <;> exact kept _ rfl
  | collect =>
    cases unit with
    | inThread =>
      cases thread with
      | ended outcome => exact ⟨rfl,Nat.sub_add_cancel (held rfl),.inl (Nat.sub_le _ _)⟩
      | _ => exact kept _ rfl
    | _ => exact kept _ rfl

structure Counted (pool : Pool Slots (Call ρ)) : Prop where
  sound : ∀ call ∈ pool.threads, Sound call
  borrowed : pool.shared.borrowed = pool.threads.countP Call.holds
  limit : ∀ total, pool.shared.total = some total → pool.shared.borrowed ≤ total

theorem counted_step (pool : Pool Slots (Call ρ)) (event : Event ρ) (counted : Counted pool) :
    Counted (step pool event) := by
  cases event with
  | outside never => cases never
  | begin _ =>
    refine ⟨forall_mem_append.mpr ⟨counted.sound,forall_mem_singleton.mpr sound_new⟩,?_,counted.limit⟩
    simp only [step,Threads.turn,countP_append]
    exact counted.borrowed
  | advance k moment =>
    unfold step
    cases found : pool.threads[k]? with
    | none => rwa [turn_idle _ _ _ found]
    | some call =>
      rw [turn_moves _ _ _ found]
      obtain ⟨bound,here⟩ := List.getElem?_eq_some_iff.mp found
      have member : call ∈ pool.threads := mem_of_getElem? found
      have held : call.holds = true → 0 < pool.shared.borrowed := by
        intro holds
        rw [counted.borrowed]; exact countP_pos_iff.mpr ⟨call,member,holds⟩
      obtain ⟨total,balance,bounds⟩ := slots_move moment pool.shared held
      refine ⟨?_,?_,?_⟩
      · intro other inside
        rcases mem_or_eq_of_mem_set inside with old | rfl
        · exact counted.sound other old
        · exact (moves moment pool.shared (counted.sound call member)).sound
      · grind only [counted.borrowed,countP_set]
      grind [Slots.free,cases Counted]

theorem counted_reach (total : Option Nat) (events : List (Event ρ)) : Counted (reach step (start total) events) := by
  refine always_reach counted_step ⟨?_,rfl,fun _ _ => zero_le _⟩ events
  intro call never
  cases never

/-- The function of a call runs at most once, and never for a caller that got `DatabaseBusy` or left before the thread
    was admitted; a slot is given back once, when the unit's task is done, which is at most eight steps away. -/
theorem run_db_hands_over_once (total : Option Nat) (events : List (Event ρ)) (k : Nat) (call : Call ρ)
    (found : (reach step (start total) events).threads[k]? = some call) :
    call.runs ≤ 1 ∧
    (call.caller = .left (.outcome .busy) ∨ (call.caller = .left .cancelled ∧ call.admitted = false) →
      ∀ later, ∃ call', (reach step (start total) (events ++ later)).threads[k]? = some call' ∧ call'.runs = 0) ∧
    (∀ exit, call.caller = .left exit → call.thread ≠ .running) ∧
    (call.taken = call.released + (if call.holds then 1 else 0) ∧ call.taken ≤ 1 ∧
      (∀ outcome, call.unit = .done outcome → call.released = call.taken) ∧
      (call.holds = true → ∀ slots, ∃ moment, call.stage < (move moment slots call).2.stage) ∧
      (∀ moment slots, call.stage ≤ (move moment slots call).2.stage) ∧ call.stage ≤ 8) ∧
    (reach step (start total) events).shared.borrowed = (reach step (start total) events).threads.countP Call.holds ∧
    ∀ limit, (reach step (start total) events).shared.total = some limit →
      (reach step (start total) events).shared.borrowed ≤ limit := by
  have counted := counted_reach total events
  have sound := counted.sound call (mem_of_getElem? found)
  refine ⟨?_,?_,fun exit left => gone_idle sound left,⟨(slot_held sound).1,(slot_held sound).2,?_,?_,?_,?_⟩,
    counted.borrowed,counted.limit⟩
  · rw [sound.counted]
    split <;> decide
  · intro left later
    have refused : Refused call := by
      rcases left with busy | ⟨cancelled,free⟩
      · exact ⟨sound,sound.refused busy,sound.gone _ busy⟩
      · exact ⟨sound,free,sound.gone _ cancelled⟩
    obtain ⟨call',there,kept⟩ : ∃ call', (reach step (reach step (start total) events) later).threads[k]? =
        some call' ∧ Refused call' := kept_reach refused_move found refused later
    exact ⟨call',by rw [reach_append]; exact there,refused_runs kept⟩
  · intro outcome done
    have held := (slot_held sound).1
    rw [Call.holds,done] at held
    exact held.symm
  · intro held slots; exact held_proceeds sound held slots
  · intro moment slots; exact (moves moment slots sound).stage
  · unfold Call.stage
    split <;> decide

end

/-- A call refused in its wait for a slot, one cancelled while its function runs, and one cancelled before. -/
def sampleEvents : List (Event Nat) :=
  [.begin (),.begin (),.begin (),.advance 0 (.start true),.advance 0 .acquire,.advance 1 (.start true),
    .advance 1 .acquire,.advance 1 .expire,.advance 1 .wake,.advance 0 (.proceed true),
    .advance 0 (.checkout .connected),.advance 0 .admits,.advance 0 .cancel,.advance 0 .deliver,.advance 0 .giveUp,
    .advance 2 .cancel,.advance 2 .deliver,.advance 2 .giveUp,.advance 0 (.finish (some 3)),.advance 0 (.close true),
    .advance 0 .collect,.advance 0 .wake]

theorem sampleEvents_hand_over :
    ∃ call, (reach step (start (some 1)) sampleEvents).threads[1]? = some call ∧
      call.caller = .left (.outcome .busy) ∧
      ∃ call', (reach step (start (some 1)) (sampleEvents ++ sampleEvents)).threads[1]? = some call' ∧
        call'.runs = 0 := by
  obtain ⟨call,found⟩ : ∃ call, (reach step (start (some 1)) sampleEvents).threads[1]? = some call :=
    Option.isSome_iff_exists.mp (by decide +kernel)
  have busy : call.caller = .left (.outcome .busy) := by
    have known : ((reach step (start (some 1)) sampleEvents).threads[1]?.map Call.caller) =
        some (.left (.outcome .busy)) := by decide +kernel
    rw [found] at known
    exact Option.some.inj known
  exact ⟨call,found,busy,(run_db_hands_over_once (some 1) sampleEvents 1 call found).2.1 (.inl busy) sampleEvents⟩

end Cowork.DatabaseUnits
