import Cowork.Transitions

/-!
The cancel requests of one turn. A request comes through the turn's handle, guarded by
the run it expects (`cancel_run`, also for a lost client) or not, or it only leaves the
Redis flag that `watch_cancel` polls. A producer may absorb a cancellation.
-/
namespace Cowork.TurnCancels
open Transitions

inductive Reason where
  | stop
  | stalled
  | clientGone
  deriving DecidableEq

/-- `reason == STALLED_CANCEL_REASON` -/
def Reason.isStall (reason : Reason) : Bool := decide (reason = .stalled)

/-- What a transaction of `request_cancel` leaves under the cause key. -/
def causeOf : Reason → Option Reason
  | .stop => none
  | reason => some reason

def stallCause (cause : Option Reason) : Bool := decide (cause = some .stalled)

/-- Where a request is: it checks the turn, writes the flag, delivers; it reported whether it cancelled, or its write
    failed. -/
inductive Place where
  | checking
  | writing
  | deciding
  | reported (cancelled : Bool)
  | raised
  deriving DecidableEq

def Place.active : Place → Bool
  | .checking | .writing | .deciding => true
  | .reported _ | .raised => false

/-- A request. `shared`: its replica has no handle of the turn; `since` counts the cancellations delivered before it
    came. -/
structure Request where
  guarded : Bool
  shared : Bool
  reason : Reason
  since : Nat
  place : Place

def Request.plain (request : Request) : Bool := !request.guarded && !request.shared

/-- The reason a request hands to `request_cancel`: `_request_cancel` knows stalls and nothing else. -/
def Request.sent (request : Request) : Reason :=
  if request.guarded then request.reason else if request.reason.isStall then .stalled else .stop

/-- `watch_cancel` between its polls, after it saw the flag, after it read the cause. -/
inductive Watcher where
  | sleeping
  | asked
  | got (cause : Option Reason)
  | ended
  deriving DecidableEq

/-- `deliveries` counts the calls of `task.cancel`; `latest` is the latest request to report success while the turn
    was answering. -/
structure World where
  redis : Bool
  remote : Bool
  running : Bool
  closed : Bool
  finishing : Bool
  shuttingDown : Bool
  cancelRequested : Bool
  stalled : Bool
  flag : Bool
  cause : Option Reason
  watcher : Watcher
  requests : List Request
  deliveries : Nat
  latest : Option (Reason × Nat)

namespace World

/-- `RunHandle.is_answering` -/
def answering (world : World) : Bool := world.running && !world.closed && !world.finishing

/-- The turn has a `watch_cancel`. -/
def watched (world : World) : Bool := world.redis && !world.remote

/-- `request_cancel`: the cause and the flag in one transaction. -/
def setFlag (world : World) (reason : Reason) : World :=
  { world with flag := true, cause := causeOf reason }

def deliver (world : World) (stalled : Bool) : World :=
  { world with stalled := stalled, cancelRequested := true, deliveries := world.deliveries + 1 }

def put (world : World) (k : Nat) (request : Request) : World :=
  { world with requests := world.requests.set k request }

def report (world : World) (k : Nat) (request : Request) (cancelled : Bool) : World :=
  { world with
    latest := if cancelled && world.answering then some (request.reason,request.since) else world.latest
    requests := world.requests.set k { request with place := .reported cancelled } }

end World

inductive Outcome where
  | done
  | failed
  | lost

/-- The end of a request: `cancel_run` after its second check, or the unguarded branch of
    `cancel_response` with `RunHandle.cancel`. -/
def finalize (world : World) (k : Nat) (request : Request) : World :=
  if request.guarded then
    if !world.answering || world.shuttingDown then world.report k request false
    else if world.cancelRequested then world.report k request true
    else (world.deliver request.reason.isStall).report k request true
  else
    if world.running then (world.deliver request.reason.isStall).report k request true
    else { world with stalled := request.reason.isStall }.report k request false

def look (world : World) (request : Request) : Place :=
  if request.shared then
    if !world.redis || world.closed || request.guarded && world.finishing then .reported false else .writing
  else if request.guarded && (!world.answering || world.shuttingDown) then .reported false
  else if world.redis || world.remote then .writing
  else .deciding

def advance (world : World) (k : Nat) (request : Request) (outcome : Outcome) : World :=
  match request.place with
  | .checking => world.put k { request with place := look world request }
  | .writing =>
    match outcome with
    | .failed => world.put k { request with place := .raised }
    | .lost => (world.setFlag request.sent).put k { request with place := .raised }
    | .done =>
      if request.shared then (world.setFlag request.sent).report k request true
      else (world.setFlag request.sent).put k { request with place := .deciding }
  | .deciding => finalize world k request
  | .reported _ | .raised => world

/-- One command of `watch_cancel`; a failed one is tried again later. -/
def poll (world : World) (ok : Bool) : World :=
  match world.watcher with
  | .sleeping =>
    if !world.answering || world.shuttingDown then { world with watcher := .ended }
    else if ok && world.flag then { world with watcher := .asked }
    else world
  | .asked => { world with watcher := if ok then .got world.cause else .sleeping }
  | .got cause =>
    if !world.answering || world.shuttingDown || world.cancelRequested then { world with watcher := .ended }
    else { world.deliver (stallCause cause) with watcher := .ended }
  | .ended => world

/-- `expire` is the end of the keys' lifetime. The producer absorbs a cancellation by
    taking none of the last four steps. -/
inductive Action where
  | request (guarded shared : Bool) (reason : Reason)
  | advance (k : Nat) (outcome : Outcome)
  | poll (ok : Bool)
  | expire
  | finishing
  | closeBuffer
  | finish
  | shutdown

def step (world : World) : Action → World
  | .request guarded shared reason =>
    { world with requests := world.requests ++ [⟨guarded,shared,reason,world.deliveries,.checking⟩] }
  | .advance k outcome =>
    match world.requests[k]? with
    | some request => advance world k request outcome
    | none => world
  | .poll ok => poll world ok
  | .expire => { world with flag := false, cause := none }
  | .finishing => { world with finishing := true }
  | .closeBuffer => { world with finishing := true, closed := true }
  | .finish => { world with running := false }
  | .shutdown => { world with shuttingDown := true }

def fresh (redis remote : Bool) : World where
  redis := redis
  remote := remote
  running := true
  closed := false
  finishing := false
  shuttingDown := false
  cancelRequested := false
  stalled := false
  flag := false
  cause := none
  watcher := if redis && !remote then .sleeping else .ended
  requests := []
  deliveries := 0
  latest := none

def Delivers (world : World) (reason : Reason) : Prop :=
  let after := reach step world [.poll true,.poll true,.poll true]
  world.deliveries < after.deliveries ∧ after.stalled = reason.isStall

/-- While the turn goes on answering: after the latest successful request came, a cancellation was delivered and
    `stalled` is that request's cause, or the watcher is about to deliver it. -/
def LatestDecides (world : World) : Prop :=
  world.answering = true → world.shuttingDown = false → ∀ reason since, world.latest = some (reason,since) →
    since < world.deliveries ∧ world.stalled = reason.isStall ∨ Delivers world reason

end Cowork.TurnCancels
