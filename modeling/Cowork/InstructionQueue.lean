import Cowork.CodingTurns
import Cowork.Queues
import Cowork.Transitions

/-!
The instructions that wait for the active turn of a local coding task
(`service_turns.py`). `queue_turn`, `remove_queued_turn` and `steer_queued_turn` change
the stored queue under the service's lock; `run_next_queued` reads its head, takes it
out and starts it without that lock. A steer takes its instruction first and puts it
back if it fails.
-/
namespace Cowork.InstructionQueue
open CodingTurns List Queues Transitions

/-- How far a steer of a queued instruction is: it took it; it calls the engine; the turn has the prompt, waiting or
    by its engine. -/
inductive Sending where
  | taken | calling | sent
deriving DecidableEq

/-- A call of `steer_queued_turn`, with the instruction and the index it had. -/
structure Steer where
  instruction : Nat
  index : Nat
  sending : Sending

/-- The call of `run_next_queued`: it reads the queue, has read the head, has taken it out, returns or raises. -/
inductive Runner where
  | none
  | reading (expected : Option Nat)
  | holding (instruction : Nat)
  | starting (instruction : Nat)
  | leaving
deriving DecidableEq

/-- One local session. Instructions are numbered as they are queued; `started` has the order of `run_next_queued`. -/
structure World where
  queue : List Nat
  next : Nat
  running : Option (RunningTurn Nat)
  maintained : Bool
  runner : Runner
  steers : List Steer
  removed : List Nat
  started : List Nat
  steered : List Nat

inductive Action where
  | queueTurn
  | removeQueuedTurn (instruction : Nat)
  /-- The first lock of `steer_queued_turn`. -/
  | steerQueuedTurn (instruction : Nat)
  /-- The lock of `steer`. -/
  | route (k : Nat) (requireReady : Bool)
  | accept (k : Nat)
  | steerReturns (k : Nat)
  /-- `steer` raises, before its lock, in the engine, or after both, and the instruction is put back. -/
  | steerRaises (k : Nat)
  /-- The maintenance reservation of `run_next_queued`. -/
  | runNext (expected : Option Nat)
  | readHead
  /-- The instruction that was read is refused, or its task cannot be continued. -/
  | refuse
  | takeHead
  /-- `_submit_turn` starts a turn. -/
  | start
  /-- `_submit_turn` runs a command at once; the loop goes on, or not. -/
  | runImmediate (again : Bool)
  /-- `_submit_turn` raises. -/
  | startRaises
  | leave
  | beginTurn (preparing : Bool)
  | attachRuntime
  | activateTurn (turnId : String)
  | endTurn
  /-- Another operation takes the maintenance reservation, or releases it. -/
  | maintain
  | release

def World.idle (w : World) : Bool := w.running.isNone && !w.maintained && decide (w.runner = .none)

/-- The lock of `steer`, for a prompt of the queue. -/
def World.route (w : World) (k : Nat) (call : Steer) (requireReady : Bool) : World :=
  match w.running with
  | none => w
  | some turn =>
    match turn.routeSteer call.instruction requireReady with
    | none => w
    | some (routed,true) =>
      { w with running := some routed, steers := w.steers.set k { call with sending := .calling } }
    | some (routed,false) =>
      { w with
        running := some routed,
        steers := w.steers.set k { call with sending := .sent },
        steered := w.steered ++ [call.instruction] }

/-- One step of a call of `steer_queued_turn`. -/
def World.steer (w : World) (k : Nat) (change : Steer → World) : World :=
  match w.steers[k]? with
  | none => w
  | some call => change call

/-- The loop of `run_next_queued`, up to the store update. -/
def Runner.read (queue : List Nat) (expected : Option Nat) : Runner :=
  if expected.all fun instruction => queue.head? = some instruction then
    match queue with
    | [] => .leaving
    | instruction :: _ => .holding instruction
  else .leaving

def step (w : World) : Action → World
  | .queueTurn =>
    if w.running.isSome = true ∧ w.queue.length < 20 then
      { w with queue := w.queue ++ [w.next], next := w.next + 1 }
    else w
  | .removeQueuedTurn instruction =>
    if instruction ∈ w.queue then
      { w with queue := withdraw w.queue instruction, removed := w.removed ++ [instruction] }
    else w
  | .steerQueuedTurn instruction =>
    if instruction ∈ w.queue ∧ w.running.isSome = true then
      { w with
        queue := withdraw w.queue instruction,
        steers := w.steers ++ [⟨instruction,w.queue.idxOf instruction,.taken⟩] }
    else w
  | .route k requireReady =>
    w.steer k fun call => if call.sending = .taken then w.route k call requireReady else w
  | .accept k =>
    w.steer k fun call =>
      if call.sending = .calling then
        { w with
          steers := w.steers.set k { call with sending := .sent },
          steered := w.steered ++ [call.instruction] }
      else w
  | .steerReturns k =>
    w.steer k fun call => if call.sending = .sent then { w with steers := w.steers.eraseIdx k } else w
  | .steerRaises k =>
    w.steer k fun call =>
      { w with queue := putBack w.queue call.instruction call.index, steers := w.steers.eraseIdx k }
  | .runNext expected => if w.idle then { w with runner := .reading expected } else w
  | .readHead =>
    match w.runner with
    | .reading expected => { w with runner := .read w.queue expected }
    | _ => w
  | .refuse =>
    match w.runner with
    | .holding _ => { w with runner := .leaving }
    | _ => w
  | .takeHead =>
    match w.runner with
    | .holding instruction => { w with queue := withdraw w.queue instruction, runner := .starting instruction }
    | _ => w
  | .start =>
    match w.runner,w.running with
    | .starting instruction,none =>
      { w with running := some (.new false), started := w.started ++ [instruction], runner := .leaving }
    | _,_ => w
  | .runImmediate again =>
    match w.runner with
    | .starting instruction =>
      { w with started := w.started ++ [instruction], runner := if again then .reading none else .leaving }
    | _ => w
  | .startRaises =>
    match w.runner with
    | .starting instruction => { w with queue := instruction :: w.queue, runner := .leaving }
    | _ => w
  | .leave =>
    match w.runner with
    | .leaving => { w with runner := .none }
    | _ => w
  | .beginTurn preparing => if w.idle then { w with running := some (.new preparing) } else w
  | .attachRuntime => { w with running := w.running.map fun turn => { turn with engine := true } }
  | .activateTurn turnId => { w with running := w.running.map fun turn => { turn with turnId := some turnId } }
  | .endTurn => { w with running := none }
  | .maintain => if w.idle then { w with maintained := true } else w
  | .release => { w with maintained := false }

def Runner.taken : Runner → List Nat
  | .starting instruction => [instruction]
  | _ => []

def Runner.ahead : Runner → List Nat
  | .holding instruction | .starting instruction => [instruction]
  | _ => []

def Runner.busy : Runner → Bool
  | .reading _ | .holding _ | .starting _ => true
  | .none | .leaving => false

def Steer.waiting (call : Steer) : List Nat := if call.sending = .sent then [] else [call.instruction]

def World.places (w : World) : List Nat :=
  w.queue ++ w.removed ++ w.started ++ w.steered ++ w.runner.taken ++ w.steers.flatMap Steer.waiting

def World.Quiet (w : World) : Prop := w.runner = .none ∧ w.steers = []

structure Fresh (w : World) : Prop where
  queue : w.queue = List.range w.next
  runner : w.runner = .none
  steers : w.steers = []
  removed : w.removed = []
  started : w.started = []
  steered : w.steered = []

/-- What `run_next_queued` has read is not removed before it is taken; no steer raises once the turn has its prompt. -/
def Kept (w : World) : Action → Prop
  | .removeQueuedTurn instruction => w.runner ≠ .holding instruction
  | .steerRaises k => ∀ call ∈ w.steers[k]?, call.sending ≠ .sent
  | _ => True

/-- A steer that raises finds as many instructions queued before its own as when it took it, and no later one that was
    started or read by `run_next_queued`. -/
def InPlace (w : World) : Action → Prop
  | .steerRaises k => ∀ call ∈ w.steers[k]?,
    (w.queue.filter (· < call.instruction)).length = call.index ∧
      ∀ other ∈ w.started ++ w.runner.ahead, other < call.instruction
  | _ => True

instance (w : World) (action : Action) : Decidable (Kept w action) := by
  cases action <;> unfold Kept <;> infer_instance

instance (w : World) (action : Action) : Decidable (InPlace w action) := by
  cases action <;> unfold InPlace <;> infer_instance

structure Counted (w : World) : Prop where
  perm : w.places.Perm (List.range w.next)
  alone : w.runner.busy = true → w.running = none
  held : ∀ instruction, w.runner = .holding instruction → instruction ∈ w.queue

attribute [local grind] step World.steer World.route World.idle Runner.read Runner.taken Runner.ahead Runner.busy
  Steer.waiting World.places Kept InPlace RunningTurn.new
attribute [local grind cases] Fresh Counted
attribute [local grind intro] Counted
attribute [local grind →] mem_of_getElem?

@[local grind =]
theorem count_places (w : World) (x : Nat) :
    w.places.count x = w.queue.count x + w.removed.count x + w.started.count x + w.steered.count x +
      w.runner.taken.count x + (w.steers.flatMap Steer.waiting).count x := by simp only [World.places,count_append]

variable {w : World} {k instruction : Nat} {call : Steer}

theorem Counted.nodup (counted : Counted w) : w.places.Nodup := counted.perm.nodup_iff.mpr nodup_range

theorem Counted.queue_nodup (counted : Counted w) : w.queue.Nodup := by
  refine counted.nodup.sublist ?_
  simp only [World.places,append_assoc]
  exact sublist_append_left _ _

theorem Counted.moved {w' : World} (counted : Counted w) (next : w'.next = w.next)
    (same : ∀ x, w'.places.count x = w.places.count x) : w'.places.Perm (List.range w'.next) := by
  rw [next]
  exact (perm_iff_count.mpr same).trans counted.perm

theorem Counted.absent (counted : Counted w) (found : w.steers[k]? = some call) (unsent : call.sending ≠ .sent) :
    call.instruction ∉ w.queue := by
  intro member
  have once := nodup_iff_count_le_one.mp counted.nodup call.instruction
  have there : 1 ≤ (w.steers.flatMap Steer.waiting).count call.instruction := by
    refine one_le_count_iff.mpr (mem_flatMap.mpr ⟨call,mem_of_getElem? found,?_⟩)
    simp [Steer.waiting,unsent]
  grind -linarith

theorem counted_fresh (fresh : Fresh w) : Counted w := by grind -linarith

theorem counted_queue (counted : Counted w) : Counted { w with queue := w.queue ++ [w.next], next := w.next + 1 } := by
  refine ⟨?_,counted.alone,fun x held => mem_append_left _ (counted.held x held)⟩
  rw [range_succ]
  refine perm_iff_count.mpr fun x => ?_
  have before := counted.perm.count_eq x
  rw [count_places] at before ⊢
  simp only [count_append]
  omega

theorem count_withdraw (counted : Counted w) (member : instruction ∈ w.queue) (x : Nat) : w.queue.count x =
    [instruction].count x + (withdraw w.queue instruction).count x := by
  rw [(perm_withdraw counted.queue_nodup member).count_eq x,← count_append]
  rfl

section
variable (counted : Counted w) (found : w.steers[k]? = some call) (unsent : call.sending ≠ .sent)
include counted found unsent

theorem counted_sent (running : Option (RunningTurn Nat)) (alone : w.runner.busy = true → running = none) :
    Counted { w with
      running := running,
      steers := w.steers.set k { call with sending := .sent },
      steered := w.steered ++ [call.instruction] } := by grind -linarith [held_set]

theorem counted_route (requireReady : Bool) : Counted (w.route k call requireReady) := by
  unfold World.route
  cases running : w.running with
  | none => exact counted
  | some turn =>
    -- A task with a turn has no call of `run_next_queued` that may start one.
    dsimp only
    cases turn.routeSteer call.instruction requireReady with
    | none => exact counted
    | some routed => grind -linarith [held_set]

theorem counted_restore :
    Counted { w with queue := putBack w.queue call.instruction call.index, steers := w.steers.eraseIdx k } := by
  grind -linarith [perm_putBack,Counted.absent,held_cut]

end

theorem steer_keeps {P : World → Prop} {change : Steer → World} (here : P w)
    (next : ∀ call, w.steers[k]? = some call → P (change call)) : P (w.steer k change) := by
  unfold World.steer
  cases found : w.steers[k]? with
  | none => exact here
  | some call => exact next call found

theorem if_keeps {P : World → Prop} {asked : Prop} [Decidable asked] {next : World} (here : P w)
    (then_ : asked → P next) : P (if asked then next else w) := by
  split
  · next yes => exact then_ yes
  · exact here

theorem read_cases (queue : List Nat) (expected : Option Nat) :
    Runner.read queue expected = .leaving ∨
      ∃ instruction rest, queue = instruction :: rest ∧ Runner.read queue expected = .holding instruction := by
  unfold Runner.read
  split
  · cases queue with
    | nil => exact .inl rfl
    | cons instruction rest => exact .inr ⟨instruction,rest,rfl,rfl⟩
  · exact .inl rfl

theorem idle_cases (idle : w.idle = true) : w.running = none ∧ w.runner = .none := by
  simp only [World.idle,Bool.and_eq_true,Option.isNone_iff_eq_none,decide_eq_true_eq] at idle
  exact ⟨idle.1.1,idle.2⟩

/-- Only the call of `run_next_queued` moves on, and no instruction goes in or out. -/
theorem Counted.turned {runner : Runner} (counted : Counted w) (taken : runner.taken = w.runner.taken)
    (alone : runner.busy = true → w.running = none)
    (held : ∀ instruction, runner = .holding instruction → instruction ∈ w.queue) :
    Counted { w with runner := runner } := by
  refine ⟨counted.moved rfl fun x => ?_,alone,held⟩
  simp only [count_places,taken]

theorem counted_step (w : World) (action : Action) (counted : Counted w) (kept : Kept w action) :
    Counted (step w action) := by
  cases action with
  | queueTurn => exact if_keeps counted fun _ => counted_queue counted
  | removeQueuedTurn instruction =>
    refine if_keeps counted fun member => ⟨counted.moved rfl fun x => ?_,counted.alone,fun other holding => ?_⟩
    · simp only [count_places,count_withdraw counted member x,count_append]
      omega
    · have differs : other ≠ instruction := fun same => kept (same ▸ holding)
      exact mem_withdraw.mpr ⟨counted.held other holding,differs⟩
  | steerQueuedTurn instruction =>
    refine if_keeps counted fun ⟨member,busy⟩ => ⟨counted.moved rfl fun x => ?_,counted.alone,fun other holding => ?_⟩
    · simp only [count_places,count_withdraw counted member x,flatMap_append,count_append]
      have waits : [Steer.mk instruction (w.queue.idxOf instruction) .taken].flatMap Steer.waiting = [instruction] := rfl
      rw [waits]; omega
    · -- A task with a turn has no call that has read the head.
      rw [counted.alone (by rw [holding]; rfl)] at busy
      cases busy
  | route k requireReady =>
    exact steer_keeps counted fun call found => if_keeps counted fun taken =>
      counted_route counted found (by rw [taken]; nofun) requireReady
  | accept k =>
    exact steer_keeps counted fun call found => if_keeps counted fun calling =>
      counted_sent counted found (by rw [calling]; nofun) w.running counted.alone
  | steerReturns k =>
    refine steer_keeps counted fun call found => if_keeps counted fun sent =>
      ⟨counted.moved rfl fun x => ?_,counted.alone,counted.held⟩
    have cut := held_cut Steer.waiting found x
    rw [Steer.waiting,if_pos sent,count_nil,Nat.zero_add] at cut
    simp only [count_places,cut]
  | steerRaises k => exact steer_keeps counted fun call found => counted_restore counted found (kept call found)
  | runNext expected =>
    refine if_keeps counted fun idle => ?_
    obtain ⟨none,free⟩ := idle_cases idle
    exact counted.turned (by rw [free]; rfl) (fun _ => none) nofun
  | readHead =>
    dsimp only [step]
    split
    · next expected reading =>
      have none : w.running = none := counted.alone (by rw [reading]; rfl)
      rcases read_cases w.queue expected with leaves | ⟨instruction,rest,queue,holds⟩
      · rw [leaves]; exact counted.turned (by rw [reading]; rfl) nofun nofun
      · rw [holds]
        refine counted.turned (by rw [reading]; rfl) (fun _ => none) fun other same => ?_
        cases same
        rw [queue]; exact mem_cons_self
    · exact counted
  | refuse | leave =>
    dsimp only [step]
    split
    · next place => exact counted.turned (by rw [place]; rfl) nofun nofun
    · exact counted
  | takeHead =>
    dsimp only [step]
    split
    · next instruction holding =>
      refine ⟨counted.moved rfl fun x => ?_,fun _ => counted.alone (by rw [holding]; rfl),nofun⟩
      simp only [count_places,count_withdraw counted (counted.held instruction holding) x,holding,Runner.taken,count_nil]
      omega
    · exact counted
  | start =>
    dsimp only [step]
    split
    · next instruction starting _ =>
      refine ⟨counted.moved rfl fun x => ?_,nofun,nofun⟩
      simp only [count_places,starting,Runner.taken,count_append,count_nil]
      omega
    · exact counted
  | runImmediate again =>
    dsimp only [step]
    split
    · next instruction starting =>
      refine ⟨counted.moved rfl fun x => ?_,fun _ => counted.alone (by rw [starting]; rfl),by cases again <;> nofun⟩
      have free : (if again then Runner.reading none else .leaving).taken = [] := by cases again <;> rfl
      rw [count_places,count_places,free,starting]
      simp only [Runner.taken,count_append,count_nil]
      omega
    · exact counted
  | startRaises =>
    dsimp only [step]
    split
    · next instruction starting =>
      refine ⟨counted.moved rfl fun x => ?_,nofun,nofun⟩
      simp only [count_places,starting,Runner.taken,count_cons,count_nil]
      omega
    · exact counted
  | beginTurn preparing =>
    refine if_keeps counted fun idle => ⟨counted.perm,fun busy => ?_,counted.held⟩
    rw [(idle_cases idle).2] at busy; cases busy
  | attachRuntime | activateTurn turnId =>
    exact ⟨counted.perm,fun busy => by simp [step,counted.alone busy],counted.held⟩
  | endTurn => exact ⟨counted.perm,fun _ => rfl,counted.held⟩
  | maintain => exact if_keeps counted fun _ => ⟨counted.perm,counted.alone,counted.held⟩
  | release => exact ⟨counted.perm,counted.alone,counted.held⟩

/-- What was started, is taken out or waits stands in the order of queueing, and the
    instruction that `run_next_queued` has read is the first that waits. -/
structure Ordered (w : World) : Prop where
  line : (w.started ++ w.runner.taken ++ w.queue).Pairwise (· < ·)
  first : ∀ instruction, w.runner = .holding instruction → ∀ other ∈ w.queue, instruction ≤ other

attribute [local grind cases] Ordered
attribute [local grind intro] Ordered

theorem ordered_fresh (fresh : Fresh w) : Ordered w := by grind -linarith [pairwise_lt_range]

theorem Counted.below (counted : Counted w) {x : Nat} (member : x ∈ w.places) : x < w.next :=
  mem_range.mp (counted.perm.subset member)

theorem ordered_queue (counted : Counted w) (ordered : Ordered w) :
    Ordered { w with queue := w.queue ++ [w.next], next := w.next + 1 } := by
  have below : ∀ x ∈ w.started ++ w.runner.taken ++ w.queue, x < w.next := by grind -linarith [Counted.below]
  grind -linarith

theorem ordered_restore (counted : Counted w) (ordered : Ordered w)
    (found : w.steers[k]? = some call) (unsent : call.sending ≠ .sent)
    (before : (w.queue.filter (· < call.instruction)).length = call.index)
    (earlier : ∀ other ∈ w.started ++ w.runner.ahead, other < call.instruction) (steers : List Steer) :
    Ordered { w with queue := putBack w.queue call.instruction call.index, steers := steers } := by
  have absent := counted.absent found unsent
  have members := fun x => (perm_putBack absent call.index).mem_iff (a := x)
  obtain ⟨gone,sorted,apart⟩ := pairwise_append.mp ordered.line
  have taken : ∀ x ∈ w.runner.taken, x ∈ w.runner.ahead := by cases w.runner <;> grind -linarith
  refine ⟨pairwise_append.mpr ⟨gone,sorted_putBack sorted absent before,?_⟩,?_⟩
  · grind -linarith
  · grind -linarith

theorem Ordered.less {w' : World} (ordered : Ordered w) (started : w'.started = w.started)
    (runner : w'.runner = w.runner) (less : w'.queue.Sublist w.queue) : Ordered w' := by
  constructor
  · rw [started,runner]; exact ordered.line.sublist (less.append_left _)
  · rw [runner]
    exact fun instruction held other member => ordered.first instruction held other (less.subset member)

theorem ordered_takeHead (counted : Counted w) (ordered : Ordered w) (holding : w.runner = .holding instruction) :
    Ordered { w with queue := withdraw w.queue instruction, runner := .starting instruction } := by
  have line := ordered.line
  have rest := line.sublist ((withdraw_sublist w.queue instruction).append_left _)
  grind -linarith [mem_withdraw]

theorem route_line (w : World) (k : Nat) (call : Steer) (requireReady : Bool) :
    (w.route k call requireReady).queue = w.queue ∧ (w.route k call requireReady).started = w.started ∧
      (w.route k call requireReady).runner = w.runner := by
  unfold World.route
  split
  · trivial
  · split <;> trivial

theorem ordered_step (w : World) (action : Action) (counted : Counted w) (ordered : Ordered w)
    (kept : Kept w action) (inPlace : InPlace w action) : Ordered (step w action) := by
  have line := ordered.line
  cases action with
  | queueTurn => exact if_keeps ordered fun _ => ordered_queue counted ordered
  | removeQueuedTurn instruction | steerQueuedTurn instruction =>
    exact if_keeps ordered fun _ => ordered.less rfl rfl (withdraw_sublist w.queue instruction)
  | route k requireReady =>
    refine steer_keeps ordered fun call found => if_keeps ordered fun _ => ?_
    obtain ⟨queue,started,runner⟩ := route_line w k call requireReady
    exact ordered.less started runner (by rw [queue])
  | accept | steerReturns =>
    exact steer_keeps ordered fun call found => if_keeps ordered fun _ => ordered.less rfl rfl (.refl _)
  | steerRaises k =>
    refine steer_keeps ordered fun call found => ?_
    obtain ⟨before,earlier⟩ := inPlace call found
    exact ordered_restore counted ordered found (kept call found) before earlier _
  | runNext expected =>
    refine if_keeps ordered fun idle => ⟨?_,nofun⟩
    rw [(idle_cases idle).2] at line
    exact line
  | readHead =>
    dsimp only [step]
    split
    · next expected reading =>
      rw [reading] at line
      rcases read_cases w.queue expected with leaves | ⟨instruction,rest,queue,holds⟩
      · rw [leaves]; exact ⟨line,nofun⟩
      · rw [holds]
        refine ⟨line,fun other same => ?_⟩
        cases same
        rw [queue] at line ⊢
        have sorted := pairwise_cons.mp (pairwise_append.mp line).2.1
        exact forall_mem_cons.mpr ⟨le_rfl,fun other member => (sorted.1 other member).le⟩
    · exact ordered
  | takeHead =>
    dsimp only [step]
    split
    · next instruction holding => exact ordered_takeHead counted ordered holding
    · exact ordered
  | refuse | leave =>
    dsimp only [step]
    split
    · next place =>
      rw [place] at line
      exact ⟨line,nofun⟩
    · exact ordered
  | start =>
    dsimp only [step]
    split
    · next instruction starting _ =>
      rw [starting] at line
      exact ⟨by simpa [Runner.taken] using line,nofun⟩
    · exact ordered
  | runImmediate again =>
    dsimp only [step]
    split
    · next instruction starting =>
      rw [starting] at line
      cases again <;> exact ⟨by simpa [Runner.taken] using line,nofun⟩
    · exact ordered
  | startRaises =>
    dsimp only [step]
    split
    · next instruction starting =>
      rw [starting] at line
      exact ⟨by simpa [Runner.taken] using line,nofun⟩
    · exact ordered
  | beginTurn | maintain => exact if_keeps ordered fun _ => ordered.less rfl rfl (.refl _)
  | attachRuntime | activateTurn | endTurn | release => exact ordered.less rfl rfl (.refl _)

/-- If nobody removes the instruction just read and no steer raises after the turn has its prompt, each instruction is
    removed, started or steered once or still queued; they start in order if steers that raise put theirs back in
    place. -/
theorem queued_instructions_are_conserved (w : World) (fresh : Fresh w) (actions : List Action)
    (kept : Permitted step Kept w actions) :
    let final := reach step w actions
    (final.removed ++ final.started ++ final.steered).Nodup ∧
      (final.Quiet → (final.queue ++ final.removed ++ final.started ++ final.steered).Perm (List.range final.next)) ∧
      (Permitted step InPlace w actions → final.started.Pairwise (· < ·)) := by
  have counted := invariant_reach counted_step (counted_fresh fresh) kept
  refine ⟨?_,?_,?_⟩
  · refine counted.nodup.sublist ?_
    simp only [World.places,append_assoc]
    refine List.Sublist.trans ?_ (sublist_append_right _ _)
    exact ((sublist_append_left _ _).append_left _).append_left _
  · rintro ⟨free,none⟩
    have perm := counted.perm
    rw [World.places,free,none] at perm
    simpa [Runner.taken] using perm
  · intro inPlace
    have both := invariant_reach
      (fun w action (sound : Counted w ∧ Ordered w) (ok : Kept w action ∧ InPlace w action) =>
        ⟨counted_step w action sound.1 ok.1,ordered_step w action sound.1 sound.2 ok.1 ok.2⟩)
      ⟨counted_fresh fresh,ordered_fresh fresh⟩ (permitted_and kept inPlace)
    exact both.2.line.sublist ((sublist_append_left _ _).trans (sublist_append_left _ _))

def sampleSession : World :=
  { queue := [], next := 0, running := none, maintained := false, runner := .none, steers := [], removed := [],
    started := [], steered := [] }

def sampleQueued : List Action := [.beginTurn false,.queueTurn,.queueTurn,.queueTurn]

def sampleNext : List Action := [.endTurn,.runNext none,.readHead,.takeHead,.start,.leave]

/-- A steer that fails and one that succeeds, a removal, and the start of what is left. -/
def sampleCalls : List Action :=
  sampleQueued ++ [.steerQueuedTurn 1,.steerRaises 0,.steerQueuedTurn 1,.route 0 false,.steerReturns 0,
    .removeQueuedTurn 0] ++ sampleNext

theorem sampleCalls_conserve :
    Permitted step InPlace sampleSession sampleCalls ∧
      (let final := reach step sampleSession sampleCalls;
        (final.removed ++ final.started ++ final.steered).Nodup ∧
        (final.Quiet →
          (final.queue ++ final.removed ++ final.started ++ final.steered).Perm (List.range final.next)) ∧
        (Permitted step InPlace sampleSession sampleCalls → final.started.Pairwise (· < ·))) := by
  have kept : Permitted step Kept sampleSession sampleCalls := by decide +kernel
  refine ⟨by decide +kernel,queued_instructions_are_conserved sampleSession ?_ sampleCalls kept⟩
  exact ⟨rfl,rfl,rfl,rfl,rfl,rfl⟩

def World.outcome (w : World) : List Nat × List Nat × List Nat × List Nat := (w.queue,w.removed,w.started,w.steered)

/-- An instruction removed while it is taken starts; one whose steer fails after the turn has its prompt stays queued;
    steers that fail leave theirs in the wrong order, or behind the next one. -/
theorem removed_instruction_runs_and_order_is_lost :
    (reach step sampleSession ([.beginTurn false,.queueTurn,.endTurn,.runNext none,.readHead,.removeQueuedTurn 0,
      .takeHead,.start,.leave])).outcome = ([],[0],[0],[]) ∧
    (reach step sampleSession [.beginTurn false,.queueTurn,.steerQueuedTurn 0,.route 0 false,.steerRaises 0]).outcome =
      ([0],[],[],[0]) ∧
    (reach step sampleSession (sampleQueued ++ [.steerQueuedTurn 0,.steerQueuedTurn 1,.steerRaises 0,.steerRaises 0] ++
      sampleNext)).outcome = ([0,2],[],[1],[]) ∧
    (reach step sampleSession (sampleQueued ++ [.steerQueuedTurn 0] ++ sampleNext ++ [.steerRaises 0] ++
      sampleNext)).outcome = ([2],[],[1,0],[]) := by decide +kernel

end Cowork.InstructionQueue
