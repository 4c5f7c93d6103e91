import Cowork.Contracts

/-!
The turns of a local coding task (`turns.py`): the reservation of a running turn and
what the turn's thread and the service write to the stored session.
-/
namespace Cowork.CodingTurns
open Contracts

inductive Reported where
  | completed | interrupted | cancelled | failed | other

/-- `terminal_status`, with `_TERMINAL_STATUSES`. -/
def terminalStatus (reported : Reported) (cancelRequested : Bool) : SessionStatus :=
  if cancelRequested then .cancelled
  else
    match reported with
    | .completed | .other => .completed
    | .interrupted => .interrupted
    | .cancelled => .cancelled
    | .failed => .failed

/-- `RunningTurn`: whether it has its engine, the turn that was started, and the prompts that wait for it. -/
structure RunningTurn (π : Type) where
  engine : Bool
  turnId : Option String
  cancelRequested : Bool
  interruptionRequested : Bool
  preparing : Bool
  pendingSteers : List π

def RunningTurn.new {π : Type} (preparing : Bool) : RunningTurn π :=
  { engine := false, turnId := none, cancelRequested := false, interruptionRequested := false, preparing := preparing,
    pendingSteers := [] }

/-- `route_steer`: the turn after it, and whether the engine is to be asked now; none if it raises. -/
def RunningTurn.routeSteer {π : Type} (turn : RunningTurn π) (prompt : π) (requireReady : Bool) :
    Option (RunningTurn π × Bool) :=
  if requireReady && (!turn.engine || turn.turnId.isNone) then none
  else if turn.turnId.isSome then
    if turn.engine then some (turn,true) else none
  else some ({ turn with pendingSteers := turn.pendingSteers ++ [prompt] },false)

def awaitFirstTurn (session : CodingSession) : CodingSession := { session with status := .ready }

def markRunning (session : CodingSession) : CodingSession := { session with status := .running, lastError := none }

def finishTurn (status : SessionStatus) (session : CodingSession) : CodingSession :=
  { session with status := status, activeTurnId := none }

def failTurn (cancelled : Bool) (message : String) (session : CodingSession) : CodingSession :=
  { session with
    status := if cancelled then .cancelled else .failed,
    activeTurnId := none,
    lastError := if cancelled then none else some message }

def interruptTurn (session : CodingSession) : CodingSession :=
  { session with status := .interrupted, activeTurnId := none, lastError := none }

end Cowork.CodingTurns
