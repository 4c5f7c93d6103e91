import Cowork.CodingTurns
import Cowork.Transitions
import Mathlib.Data.List.Perm.Basic

/-!
The follow-ups of a local coding turn. A prompt that `steer` accepts waits in the
reservation until the turn is activated, and goes straight to the engine from then on;
those that waited are passed by the turn's thread (`follow_ups_reach_the_agent`).
-/
namespace Cowork.FollowUps
open CodingTurns List Transitions

/-- What the task's thread is at. The prompt that starts the operation may be a follow-up; `flushing` passes those
    that waited. -/
inductive Thread (π : Type) where
  | preparing
  | opening (first : Option π)
  | attached (first : Option π)
  | started
  | flushing (rest : List π)
  | collecting
  | ended

/-- One task, with the calls of `steer` about to call the engine, and the prompts routed and passed, in order. -/
structure World (π : Type) where
  running : Option (RunningTurn π)
  thread : Thread π
  calls : List π
  routed : List π
  passed : List π

def World.reserved {π : Type} (preparing : Bool) : World π :=
  { running := some (.new preparing), thread := if preparing then .preparing else .opening none, calls := [],
    routed := [], passed := [] }

inductive Action (π : Type) where
  /-- The lock of `steer`. -/
  | steer (prompt : π)
  /-- A call of `steer` calls the engine. -/
  | call (k : Nat)
  /-- The lock of `_prepare_and_start`: the first prompt starts a turn, or ran at once. -/
  | prepared (starts : Bool)
  | attachRuntime
  | startOperation
  | activateTurn (turnId : String)
  /-- The thread passes the next prompt that waited, or goes on to the events. -/
  | flush
  | finish

variable {π : Type}

/-- `_start_waiting_work`: the first follow-up becomes the turn. -/
def World.startWaitingWork (w : World π) : List π → World π
  | [] => { w with running := none, thread := .ended }
  | first :: rest =>
    { w with
      running := some { (.new false : RunningTurn π) with pendingSteers := rest },
      thread := .opening (some first) }

def step (w : World π) : Action π → World π
  | .steer prompt =>
    match w.running with
    | none => w
    | some turn =>
      match turn.routeSteer prompt false with
      | none => w
      | some (next,true) =>
        { w with running := some next, calls := w.calls ++ [prompt], routed := w.routed ++ [prompt] }
      | some (next,false) => { w with running := some next, routed := w.routed ++ [prompt] }
  | .call k =>
    match w.calls[k]? with
    | none => w
    | some prompt => { w with calls := w.calls.eraseIdx k, passed := w.passed ++ [prompt] }
  | .prepared starts =>
    match w.thread,w.running with
    | .preparing,some turn =>
      if starts then
        { w with
          running := some { (.new false : RunningTurn π) with pendingSteers := turn.pendingSteers },
          thread := .opening none }
      else w.startWaitingWork turn.pendingSteers
    | _,_ => w
  | .attachRuntime =>
    match w.thread,w.running with
    | .opening first,some turn => { w with running := some { turn with engine := true }, thread := .attached first }
    | _,_ => w
  | .startOperation =>
    match w.thread with
    | .attached first => { w with thread := .started, passed := w.passed ++ first.toList }
    | _ => w
  | .activateTurn turnId =>
    match w.thread,w.running with
    | .started,some turn =>
      { w with running := some { turn with turnId := some turnId }, thread := .flushing turn.pendingSteers }
    | _,_ => w
  | .flush =>
    match w.thread with
    | .flushing [] => { w with thread := .collecting }
    | .flushing (prompt :: rest) => { w with thread := .flushing rest, passed := w.passed ++ [prompt] }
    | _ => w
  | .finish =>
    match w.thread with
    | .collecting => { w with running := none, thread := .ended }
    | _ => w

def Thread.through : Thread π → Bool
  | .flushing [] | .collecting | .ended => true
  | _ => false

def World.Quiet (w : World π) : Prop := w.calls = [] ∧ w.thread.through = true

/-- A call of `steer` passes its prompt only when the thread has passed those that waited
    and no older call is left. -/
def InTurn (w : World π) : Action π → Prop
  | .call k => k = 0 ∧ w.thread.through = true
  | _ => True

instance (w : World π) (action : Action π) : Decidable (InTurn w action) := by
  cases action <;> unfold InTurn <;> infer_instance

/-- The task's reservation, its thread, the prompts that the thread has yet to pass, and
    the calls of `steer`: there are none before the turn is activated. -/
inductive Phase : Option (RunningTurn π) → Thread π → List π → List π → Prop
  | preparing (turn : RunningTurn π) (off : turn.turnId = none) : Phase (some turn) .preparing turn.pendingSteers []
  | opening (turn : RunningTurn π) (off : turn.turnId = none) (first : Option π) :
    Phase (some turn) (.opening first) (first.toList ++ turn.pendingSteers) []
  | attached (turn : RunningTurn π) (off : turn.turnId = none) (ready : turn.engine = true) (first : Option π) :
    Phase (some turn) (.attached first) (first.toList ++ turn.pendingSteers) []
  | started (turn : RunningTurn π) (off : turn.turnId = none) (ready : turn.engine = true) :
    Phase (some turn) .started turn.pendingSteers []
  | flushing (turn : RunningTurn π) (on : turn.turnId.isSome = true) (ready : turn.engine = true)
    (rest calls : List π) : Phase (some turn) (.flushing rest) rest calls
  | collecting (turn : RunningTurn π) (on : turn.turnId.isSome = true) (ready : turn.engine = true) (calls : List π) :
    Phase (some turn) .collecting [] calls
  | ended (calls : List π) : Phase none .ended [] calls

/-- What a step does to the prompts: one is routed, and waits or is called; the thread passes some; a call passes its
    own. -/
inductive Effect (w : World π) (waiting : List π) : Action π → World π → List π → Prop
  | none {action : Action π} {w' : World π} (calls : w'.calls = w.calls) (routed : w'.routed = w.routed)
    (passed : w'.passed = w.passed) : Effect w waiting action w' waiting
  | waits {action : Action π} {w' : World π} (prompt : π) (none : w.calls = []) (calls : w'.calls = [])
    (routed : w'.routed = w.routed ++ [prompt]) (passed : w'.passed = w.passed) :
    Effect w waiting action w' (waiting ++ [prompt])
  | direct {action : Action π} {w' : World π} (prompt : π) (calls : w'.calls = w.calls ++ [prompt])
    (routed : w'.routed = w.routed ++ [prompt]) (passed : w'.passed = w.passed) : Effect w waiting action w' waiting
  | own {action : Action π} {w' : World π} (first rest : List π) (split : waiting = first ++ rest)
    (calls : w'.calls = w.calls) (routed : w'.routed = w.routed) (passed : w'.passed = w.passed ++ first) :
    Effect w waiting action w' rest
  | call {w' : World π} (k : Nat) (prompt : π) (found : w.calls[k]? = some prompt)
    (calls : w'.calls = w.calls.eraseIdx k) (routed : w'.routed = w.routed)
    (passed : w'.passed = w.passed ++ [prompt]) : Effect w waiting (.call k) w' waiting

theorem routeSteer_waits {turn : RunningTurn π} (off : turn.turnId = none) (prompt : π) :
    turn.routeSteer prompt false = some ({ turn with pendingSteers := turn.pendingSteers ++ [prompt] },false) := by
  simp [RunningTurn.routeSteer,off]

theorem routeSteer_direct {turn : RunningTurn π} (on : turn.turnId.isSome = true) (ready : turn.engine = true)
    (prompt : π) : turn.routeSteer prompt false = some (turn,true) := by simp [RunningTurn.routeSteer,on,ready]

theorem step_effect {w : World π} {waiting : List π} (phase : Phase w.running w.thread waiting w.calls)
    (action : Action π) :
    ∃ waiting', Phase (step w action).running (step w action).thread waiting' (step w action).calls ∧
      Effect w waiting action (step w action) waiting' := by
  obtain ⟨running,thread,calls,routed,passed⟩ := w
  have same : ∃ waiting', Phase running thread waiting' calls ∧
      Effect ⟨running,thread,calls,routed,passed⟩ waiting action ⟨running,thread,calls,routed,passed⟩ waiting' :=
    ⟨waiting,phase,.none rfl rfl rfl⟩
  cases action with
  | steer prompt =>
    cases phase with
    | preparing turn off =>
      simp only [step,routeSteer_waits off]
      exact ⟨_,.preparing _ off,.waits prompt rfl rfl rfl rfl⟩
    | opening turn off first =>
      simp only [step,routeSteer_waits off]
      refine ⟨_,.opening { turn with pendingSteers := turn.pendingSteers ++ [prompt] } off first,?_⟩
      rw [← append_assoc]; exact .waits prompt rfl rfl rfl rfl
    | attached turn off ready first =>
      simp only [step,routeSteer_waits off]
      refine ⟨_,.attached { turn with pendingSteers := turn.pendingSteers ++ [prompt] } off ready first,?_⟩
      rw [← append_assoc]; exact .waits prompt rfl rfl rfl rfl
    | started turn off ready =>
      simp only [step,routeSteer_waits off]
      exact ⟨_,.started _ off ready,.waits prompt rfl rfl rfl rfl⟩
    | flushing turn on ready =>
      simp only [step,routeSteer_direct on ready]
      exact ⟨_,.flushing turn on ready _ _,.direct prompt rfl rfl rfl⟩
    | collecting turn on ready =>
      simp only [step,routeSteer_direct on ready]
      exact ⟨_,.collecting turn on ready _,.direct prompt rfl rfl rfl⟩
    | ended => exact same
  | call k =>
    simp only [step]
    cases found : calls[k]? with
    | none => exact same
    | some prompt =>
      have effect : Effect ⟨running,thread,calls,routed,passed⟩ waiting (.call k)
          ⟨running,thread,calls.eraseIdx k,routed,passed ++ [prompt]⟩ waiting := .call k prompt found rfl rfl rfl
      refine ⟨waiting,?_,effect⟩
      cases phase with
      | preparing | opening | attached | started => cases found
      | flushing turn on ready => exact .flushing turn on ready _ _
      | collecting turn on ready => exact .collecting turn on ready _
      | ended => exact .ended _
  | prepared starts =>
    cases phase with
    | preparing turn off =>
      cases starts with
      | true => exact ⟨_,.opening _ rfl none,.none rfl rfl rfl⟩
      | false =>
        simp only [step]
        cases waiting : turn.pendingSteers with
        | nil => exact ⟨_,.ended _,.none rfl rfl rfl⟩
        | cons first rest => exact ⟨_,.opening _ rfl (some first),.none rfl rfl rfl⟩
    | _ => exact same
  | attachRuntime =>
    cases phase with
    | opening turn off first => exact ⟨_,.attached { turn with engine := true } off rfl first,.none rfl rfl rfl⟩
    | _ => exact same
  | startOperation =>
    cases phase with
    | attached turn off ready first => exact ⟨_,.started turn off ready,.own first.toList _ rfl rfl rfl rfl⟩
    | _ => exact same
  | activateTurn turnId =>
    cases phase with
    | started turn off ready =>
      exact ⟨_,.flushing { turn with turnId := some turnId } rfl ready _ _,.none rfl rfl rfl⟩
    | _ => exact same
  | flush =>
    cases phase with
    | flushing turn on ready =>
      cases waiting with
      | nil => exact ⟨_,.collecting turn on ready _,.none rfl rfl rfl⟩
      | cons prompt rest => exact ⟨_,.flushing turn on ready rest _,.own [prompt] rest rfl rfl rfl rfl⟩
    | _ => exact same
  | finish =>
    cases phase with
    | collecting turn on ready => exact ⟨_,.ended _,.none rfl rfl rfl⟩
    | _ => exact same

theorem phase_reserved (preparing : Bool) :
    Phase (World.reserved preparing : World π).running (World.reserved preparing : World π).thread []
      (World.reserved preparing : World π).calls := by
  cases preparing with
  | true => exact .preparing (.new true) rfl
  | false => exact .opening (.new false) rfl none

theorem phase_through {running : Option (RunningTurn π)} {thread : Thread π} {waiting calls : List π}
    (phase : Phase running thread waiting calls) (through : thread.through = true) : waiting = [] := by
  grind only [cases Phase,Thread.through]

def Sound (w : World π) : Prop :=
  ∃ waiting, Phase w.running w.thread waiting w.calls ∧ (w.passed ++ waiting ++ w.calls).Perm w.routed

theorem sound_step (w : World π) (action : Action π) (sound : Sound w) : Sound (step w action) := by
  obtain ⟨waiting,phase,perm⟩ := sound
  obtain ⟨waiting',next,effect⟩ := step_effect phase action
  refine ⟨waiting',next,?_⟩
  cases effect with
  | none calls routed passed => rwa [calls,routed,passed]
  | waits prompt none calls routed passed => grind [perm.append_right]
  | direct prompt calls routed passed => rw [calls,routed,passed,← append_assoc]; exact perm.append_right [prompt]
  | own first rest split calls routed passed =>
    rw [split] at perm
    rwa [calls,routed,passed,append_assoc w.passed]
  | call k prompt found calls routed passed =>
    obtain ⟨bound,rfl⟩ := List.getElem?_eq_some_iff.mp found
    rw [calls,routed,passed]
    refine List.Perm.trans ?_ perm
    have rest : (w.calls[k] :: (waiting ++ w.calls.eraseIdx k)).Perm (waiting ++ w.calls) :=
      perm_middle.symm.trans ((List.getElem_cons_eraseIdx_perm bound).append_left waiting)
    simpa [append_assoc] using rest.append_left w.passed

def Action.routes : Action π → Bool
  | .steer _ => true
  | _ => false

def Drains (w : World π) : Prop :=
  ∃ rest, (∀ action ∈ rest, action.routes = false) ∧ (reach step w rest).Quiet ∧ (reach step w rest).routed = w.routed

theorem drains_step {w : World π} (action : Action π) (own : action.routes = false)
    (same : (step w action).routed = w.routed) (later : Drains (step w action)) : Drains w := by
  obtain ⟨rest,others,quiet,routed⟩ := later
  exact ⟨action :: rest,forall_mem_cons.mpr ⟨own,others⟩,quiet,routed.trans same⟩

theorem drains_through (running : Option (RunningTurn π)) {thread : Thread π} (through : thread.through = true)
    (calls routed passed : List π) : Drains ⟨running,thread,calls,routed,passed⟩ := by
  induction calls generalizing passed with
  | nil =>
    refine ⟨[],?_,⟨rfl,through⟩,rfl⟩
    intro action member; cases member
  | cons prompt rest ih => exact drains_step (.call 0) rfl rfl (ih (passed ++ [prompt]))

theorem drains_flushing (running : Option (RunningTurn π)) (rest calls routed passed : List π) :
    Drains ⟨running,.flushing rest,calls,routed,passed⟩ := by
  induction rest generalizing passed with
  | nil => exact drains_through running rfl calls routed passed
  | cons prompt rest ih => exact drains_step .flush rfl rfl (ih (passed ++ [prompt]))

theorem drains_started (turn : RunningTurn π) (calls routed passed : List π) :
    Drains ⟨some turn,.started,calls,routed,passed⟩ :=
  drains_step (.activateTurn "turn") rfl rfl (drains_flushing _ turn.pendingSteers calls routed passed)

theorem drains_attached (turn : RunningTurn π) (first : Option π) (calls routed passed : List π) :
    Drains ⟨some turn,.attached first,calls,routed,passed⟩ :=
  drains_step .startOperation rfl rfl (drains_started turn calls routed (passed ++ first.toList))

theorem drains_opening (turn : RunningTurn π) (first : Option π) (calls routed passed : List π) :
    Drains ⟨some turn,.opening first,calls,routed,passed⟩ :=
  drains_step .attachRuntime rfl rfl (drains_attached { turn with engine := true } first calls routed passed)

theorem drains {w : World π} (sound : Sound w) : Drains w := by
  obtain ⟨running,thread,calls,routed,passed⟩ := w
  obtain ⟨waiting,phase,_⟩ := sound
  cases phase with
  | preparing turn => exact drains_step (.prepared true) rfl rfl (drains_opening _ none [] routed passed)
  | opening turn off first => exact drains_opening turn first [] routed passed
  | attached turn off ready first => exact drains_attached turn first [] routed passed
  | started turn => exact drains_started turn [] routed passed
  | flushing turn => exact drains_flushing _ _ calls routed passed
  | collecting | ended => exact drains_through _ rfl calls routed passed

def InOrder (w : World π) : Prop :=
  ∃ waiting, Phase w.running w.thread waiting w.calls ∧ w.passed ++ waiting ++ w.calls = w.routed

theorem inOrder_step (w : World π) (action : Action π) (inOrder : InOrder w) (inTurn : InTurn w action) :
    InOrder (step w action) := by
  obtain ⟨waiting,phase,line⟩ := inOrder
  obtain ⟨waiting',next,effect⟩ := step_effect phase action
  refine ⟨waiting',next,?_⟩
  cases effect with
  | none calls routed passed => rwa [calls,routed,passed]
  | waits prompt none calls routed passed =>
    rw [none,append_nil] at line
    rw [calls,routed,passed,append_nil,← line,append_assoc]
  | direct prompt calls routed passed => rw [calls,routed,passed,← line,append_assoc _ w.calls]
  | own first rest split calls routed passed =>
    rw [split] at line
    rwa [calls,routed,passed,append_assoc w.passed]
  | call k prompt found calls routed passed =>
    -- The oldest call, and nothing waits for the thread.
    obtain ⟨rfl,through⟩ := inTurn
    rw [routed,← line,phase_through phase through]
    cases older : w.calls <;> grind

/-- No prompt is passed more often than it was routed, all are passed once the waiting ones are and no call is under
    way, and they are in order if each call waits for the older ones. -/
theorem follow_ups_reach_the_agent (preparing : Bool) (actions : List (Action π)) :
    let final := reach step (World.reserved preparing) actions
    final.passed.Subperm final.routed ∧ (final.Quiet → final.passed.Perm final.routed) ∧ Drains final ∧
      (Permitted step InTurn (World.reserved preparing) actions → final.passed <+: final.routed) := by
  have fresh : Sound (World.reserved preparing : World π) := ⟨[],phase_reserved preparing,.refl _⟩
  have sound := always_reach sound_step fresh actions
  refine ⟨?_,?_,drains sound,?_⟩
  · obtain ⟨waiting,_,perm⟩ := sound
    rw [append_assoc] at perm
    exact (sublist_append_left _ _).subperm.trans perm.subperm
  · rintro ⟨none,through⟩
    obtain ⟨waiting,phase,perm⟩ := sound
    rwa [none,phase_through phase through,append_nil,append_nil] at perm
  · intro inTurn
    obtain ⟨waiting,_,line⟩ := invariant_reach inOrder_step ⟨[],phase_reserved preparing,rfl⟩ inTurn
    rw [← line,append_assoc]; exact prefix_append _ _

def sampleFollowUps : List (Action Nat) :=
  [.steer 0,.prepared true,.attachRuntime,.steer 1,.startOperation,.activateTurn "turn",.steer 2,.flush,.flush,.call 0]

theorem sampleFollowUps_in_order :
    Permitted step InTurn (World.reserved true) sampleFollowUps ∧
      (reach step (World.reserved true) sampleFollowUps).passed <+:
        (reach step (World.reserved true) sampleFollowUps).routed := by
  have inTurn : Permitted step InTurn (World.reserved true) sampleFollowUps := by decide +kernel
  exact ⟨inTurn,(follow_ups_reach_the_agent true sampleFollowUps).2.2.2 inTurn⟩

def World.outcome (w : World π) : List π × List π := (w.routed,w.passed)

/-- A call of `steer` overtakes a prompt that waits for the thread, or an older call. -/
theorem follow_up_overtakes :
    (reach step (World.reserved false)
      [.steer 0,.attachRuntime,.startOperation,.activateTurn "turn",.steer 1,.call 0,.flush]).outcome = ([0,1],[1,0]) ∧
    (reach step (World.reserved false)
      [.attachRuntime,.startOperation,.activateTurn "turn",.flush,.steer 0,.steer 1,.call 1,.call 0]).outcome =
        ([0,1],[1,0]) := by decide +kernel

end Cowork.FollowUps
