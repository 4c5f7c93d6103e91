import Mathlib.Logic.Function.Basic
import Cowork.Transitions

/-!
The registry of turns of one server process. `start` admits a turn in several steps,
with an await between any two, under a lock per conversation that a weak map keeps only
while a call refers to it. Producers and the other calls run in between.
-/
namespace Cowork.RunRegistry

/-- A turn that was registered: its `RunHandle` with the state of its task, buffer and lifecycle. `opener` is the
    `start` that made it. -/
structure Turn where
  conversation : Nat
  turnId : Int
  opener : Nat
  running : Bool
  closed : Bool
  finishing : Bool
  saved : Bool
  shuttingDown : Bool
  cancelRequested : Bool

def Turn.answering (turn : Turn) : Bool := turn.running && !turn.closed && !turn.finishing

/-- Why a call of `start` raised. -/
inductive Refusal where
  /-- `TurnInProgress`. -/
  | inProgress (turnId : Int)
  /-- `ServerShuttingDown`, from the first check or from the last one. -/
  | shuttingDown (last : Bool)
  /-- `open_buffer` failed. -/
  | buffer
  /-- `record_turn` failed. -/
  | publication
  | cancelled
deriving DecidableEq

/-- Where a call of `start` stands. -/
inductive Place where
  | entering
  | waiting
  | joining (turn : Nat)
  | opening
  | publishing
  /-- In `_forget_unstarted_run`. -/
  | forgetting (refusal : Refusal)
  | returned (turn : Nat)
  | raised (refusal : Refusal)
deriving DecidableEq

def Place.inside : Place → Bool
  | .joining _ => true
  | .opening => true
  | .publishing => true
  | .forgetting _ => true
  | _ => false

def Place.live (place : Place) : Bool := place = .waiting || place.inside

/-- A call of `start`. -/
structure Start where
  conversation : Nat
  turnId : Int
  lock : Nat
  place : Place
  opened : Bool

structure World where
  /-- `get_backend() == "redis"`. -/
  redis : Bool
  closed : Bool
  /-- `_by_cid`. -/
  current : Nat → Option Nat
  turns : List Turn
  starts : List Start
  /-- `_start_locks`. -/
  locks : Nat → Option Nat
  nextLock : Nat
  holder : Nat → Option Nat

def fresh (redis : Bool) : World := ⟨redis,false,fun _ => none,[],[],fun _ => none,0,fun _ => none⟩

inductive Action where
  | start (conversation : Nat) (turnId : Int)
  /-- A call of `start` goes on. With `false`, its await fails or its caller is cancelled. -/
  | advance (k : Nat) (ok : Bool)
  | collect (conversation : Nat)
  /-- A producer begins to write a final client frame, or its terminal record. -/
  | finishing (turn : Nat)
  | closeBuffer (turn : Nat)
  | finish (turn : Nat)
  | save (turn : Nat)
  | cancel (conversation : Nat)
  /-- `gc_finished`, with the conversations whose handle is old enough. -/
  | gc (stale : List Nat)
  | close
  | shutdown

def World.change (world : World) (i : Nat) (f : Turn → Turn) : World := { world with turns := world.turns.modify i f }

def World.move (world : World) (k : Nat) (start : Start) : World := { world with starts := world.starts.set k start }

def World.leave (world : World) (k : Nat) (start : Start) : World :=
  { world with starts := world.starts.set k start, holder := Function.update world.holder start.lock none }

def register (world : World) (k : Nat) (start : Start) : World :=
  if world.closed then
    if world.redis then world.move k { start with place := .forgetting (.shuttingDown true) }
    else world.leave k { start with place := .raised (.shuttingDown true) }
  else
    { world.leave k { start with place := .returned world.turns.length } with
      turns := world.turns ++ [⟨start.conversation,start.turnId,k,true,false,false,false,false,false⟩]
      current := Function.update world.current start.conversation (some world.turns.length) }

def World.existing (world : World) (conversation : Nat) : Option (Nat × Turn) :=
  (world.current conversation).bind fun i => world.turns[i]?.map fun turn => (i,turn)

/-- The checks of `start`, under the lock. -/
def check (world : World) (start : Start) : Place :=
  if world.closed then .raised (.shuttingDown false)
  else
    match world.existing start.conversation with
    | none => .opening
    | some (i,turn) =>
      if turn.answering then .raised (.inProgress turn.turnId)
      else if turn.saved && start.turnId ≤ turn.turnId then .raised (.inProgress turn.turnId)
      else if turn.running && !turn.closed then .joining i
      else .opening

def World.ended (world : World) (i : Nat) : Bool :=
  match world.turns[i]? with
  | some turn => !turn.running
  | none => true

/-- A call of `start` goes on to its next await. -/
def advance (world : World) (k : Nat) (start : Start) (ok : Bool) : World :=
  match start.place with
  | .entering =>
    match world.locks start.conversation with
    | some lock => world.move k { start with lock := lock, place := .waiting }
    | none =>
      { world.move k { start with lock := world.nextLock, place := .waiting } with
        locks := Function.update world.locks start.conversation (some world.nextLock)
        nextLock := world.nextLock + 1 }
  | .waiting =>
    if !ok then world.move k { start with place := .raised .cancelled }
    else if (world.holder start.lock).isSome then world
    else if (check world start).inside then
      { world.move k { start with place := check world start } with
        holder := Function.update world.holder start.lock (some k) }
    else world.move k { start with place := check world start }
  | .joining i =>
    if !ok then world.leave k { start with place := .raised .cancelled }
    else if world.ended i then world.move k { start with place := .opening } else world
  | .opening =>
    if !ok then world.leave k { start with place := .raised .buffer }
    else if world.redis then world.move k { start with place := .publishing, opened := true }
    else register world k { start with opened := true }
  | .publishing =>
    if ok then register world k start else world.move k { start with place := .forgetting .publication }
  | .forgetting refusal => world.leave k { start with place := .raised refusal }
  | .returned _ => world
  | .raised _ => world

/-- `in_flight`, as positions. -/
def inFlight (world : World) : List Nat :=
  (List.range world.turns.length).filter fun i =>
    match world.turns[i]? with
    | some turn => turn.running && world.current turn.conversation = some i
    | none => false

/-- `gc_finished` for one conversation. -/
def dropFinished (world : World) (conversation : Nat) : World :=
  match world.existing conversation with
  | some (_,turn) =>
    if turn.running then world else { world with current := Function.update world.current conversation none }
  | none => world

/-- `shutdown` marks every turn in flight before it cancels it. -/
def shutdown (world : World) : World :=
  (inFlight world).foldl (fun world i => world.change i fun turn => { turn with shuttingDown := true }) world

def step (world : World) : Action → World
  | .start conversation turnId => { world with starts := world.starts ++ [⟨conversation,turnId,0,.entering,false⟩] }
  | .advance k ok =>
    match world.starts[k]? with
    | some start => advance world k start ok
    | none => world
  | .collect conversation =>
    if world.starts.any fun start => start.conversation = conversation && start.place.live then world
    else { world with locks := Function.update world.locks conversation none }
  | .finishing i => world.change i fun turn => { turn with finishing := true }
  | .closeBuffer i => world.change i fun turn => { turn with finishing := true, closed := true }
  | .finish i => world.change i fun turn => { turn with running := false }
  | .save i => world.change i fun turn => if turn.running then { turn with saved := true } else turn
  | .cancel conversation =>
    match world.existing conversation with
    | some (i,_) => world.change i fun turn => if turn.running then { turn with cancelRequested := true } else turn
    | none => world
  | .gc stale => stale.foldl dropFinished world
  | .close => { world with closed := true }
  | .shutdown => shutdown world

end Cowork.RunRegistry
