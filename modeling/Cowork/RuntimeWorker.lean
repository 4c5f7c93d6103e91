import Cowork.CommandQueue

/-!
`CodeOnlyRuntime` (`runtime_worker.py`) at work on one lease: the loop that waits for a
start command and runs its turn, and the thread that routes commands meanwhile. A step
is what a thread does under a lock or in one request. A request may fail before or after
it reached the server; what the engine and the handlers return or raise is chosen at
each step.
-/
namespace Cowork.RuntimeWorker
open Json ControlModels ControlStore CommandQueue

structure Lease where
  runId : String
  computerId : String
  leaseId : String
  epoch : Nat

structure Choice where
  now : Time
  saved : String → Time
  fails : Bool := false
  /-- A request that raises has reached the server all the same. -/
  reaches : Bool := false
  /-- It raises `httpx.TransportError`, not `RuntimeClientError`. -/
  transport : Bool := false
  raises : Bool := false
  /-- `_start_turn` returns the id of a turn that is going on. -/
  opens : Bool := false
  result : Option String := none
  error : Option String := none
  /-- The acknowledgement is sent inside the `try` of `_route_command`. -/
  guarded : Bool := false

def noActiveTurn : String := "There is no active turn"
def unsupportedCommand : String := "The selected computer does not support that command"
def maxCompletedResults : Nat := 256

/-- Where the thread of `_execute` stands. -/
inductive Main where
  /-- `_wait_for_start`, at the head of its loop. -/
  | waiting
  /-- `_take_commands`, after it copied the deferred commands. -/
  | claiming (snapshot : List RuntimeCommand)
  /-- `_take_commands`, after its claim. -/
  | taking (snapshot claimed : List RuntimeCommand)
  /-- The `for` of `_wait_for_start`. -/
  | choosing (selected : Option RuntimeCommand) (rest : List RuntimeCommand)
  | answering (selected : Option RuntimeCommand) (command : RuntimeCommand) (result error : Option String)
    (rest : List RuntimeCommand)
  /-- `_run_turn`, before `_start_turn`. -/
  | starting (command : RuntimeCommand)
  /-- `_run_turn`, before the acknowledgement of the start command. -/
  | started (command : RuntimeCommand) (opened : Bool)
  /-- The turn is going on, with the thread that routes its commands. -/
  | turning (router : Nat)
  /-- `command_thread.join`. -/
  | joining (failing : Bool)
  /-- Before the `turn_completed` event. -/
  | completing
  /-- After `operations.release()`. -/
  | releasing (command : RuntimeCommand)
  | ended
  | failed

/-- Where a thread of `_route_commands` stands. -/
inductive Routing where
  | idle
  | polling
  | claiming (snapshot : List RuntimeCommand)
  | taking (snapshot claimed : List RuntimeCommand)
  | routing (rest : List RuntimeCommand)
  | answering (command : RuntimeCommand) (result error : Option String) (guarded : Bool) (rest : List RuntimeCommand)
  | done

/-- A thread of `_route_commands`, with the `stop` event of its turn. -/
structure Router where
  stop : Bool := false
  phase : Routing := .idle

/-- The last three lists record the commands passed to `_start_turn`, those whose operation ran, and those that
    released the workspace. -/
structure World (backend : Backend) where
  server : State backend
  /-- `_pending_commands`. -/
  pending : List RuntimeCommand := []
  /-- `_completed`, oldest first. -/
  completed : List (String × Option String × Option String) := []
  main : Main := .waiting
  routers : List Router := []
  started : List String := []
  operated : List String := []
  released : List String := []

section
variable {backend : Backend} (lease : Lease)

/-- `RemoteRuntimeClient.commands`. -/
def claim (choice : Choice) (s : State backend) : Option (List RuntimeCommand) × State backend :=
  if choice.fails && !choice.reaches then (none,s)
  else match (commandStore backend).claimCommands choice.now choice.saved lease.runId lease.computerId lease.leaseId
      lease.epoch s with
    | (.ok commands,t) => (if choice.fails then none else some commands,t)
    | (.error _,t) => (none,t)

/-- `RemoteRuntimeClient.acknowledge`: whether it returned. -/
def acknowledge (choice : Choice) (command : RuntimeCommand) (result error : Option String) (s : State backend) :
    Bool × State backend :=
  if choice.fails && !choice.reaches then (false,s)
  else match (commandStore backend).acknowledgeCommand choice.now (choice.saved command.id) lease.runId command.id
      lease.computerId lease.leaseId lease.epoch result error s with
    | (.ok _,t) => (!choice.fails,t)
    | (.error _,t) => (false,t)

/-- `_defer_command`. -/
def defer (command : RuntimeCommand) (w : World backend) : World backend :=
  if w.pending.all (fun pending => pending.id ≠ command.id) then { w with pending := w.pending ++ [command] } else w

/-- The second half of `_take_commands`. -/
def forget (taken : List RuntimeCommand) (w : World backend) : World backend :=
  { w with pending := w.pending.filter (fun command => !(taken.map RuntimeCommand.id).contains command.id) }

/-- `while len(self._completed) > _MAX_COMPLETED_RESULTS: del ...`. -/
def trimmed (completed : List (String × Option String × Option String)) : List (String × Option String × Option String) :=
  completed.drop (completed.length - maxCompletedResults)

def remembered (w : World backend) (command : RuntimeCommand) : Option (Option String × Option String) :=
  (w.completed.find? (fun entry => entry.1 = command.id)).map Prod.snd

/-- `RuntimeWorkspaceOperations.execute`. -/
def execute (choice : Choice) (command : RuntimeCommand) (w : World backend) :
    (Option String × Option String) × World backend :=
  match remembered w command with
  | some cached => (cached,w)
  | none =>
    ((choice.result,choice.error),{ w with
      completed := trimmed (w.completed ++ [(command.id,choice.result,choice.error)])
      operated := w.operated ++ [command.id] })

/-- One command of the `for` of `_wait_for_start`. -/
def choose (choice : Choice) (selected : Option RuntimeCommand) (command : RuntimeCommand) (rest : List RuntimeCommand)
    (w : World backend) : World backend :=
  match command.kind with
  | .start | .release =>
    match selected with
    | none => { w with main := .choosing (some command) rest }
    | some _ => { defer command w with main := .choosing selected rest }
  | .operation =>
    match selected with
    | none =>
      { (execute choice command w).2 with
        main := .answering none command (execute choice command w).1.1 (execute choice command w).1.2 rest }
    | some _ => { defer command w with main := .choosing selected rest }
  | .steer | .agentCommand | .approve | .cancel =>
    { w with main := .answering selected command none (some noActiveTurn) rest }
  | .prepare | .checkpoint => { w with main := .answering selected command none (some unsupportedCommand) rest }

/-- The next step of `_execute`, with `_wait_for_start` and `_run_turn`. -/
def mainStep (choice : Choice) (w : World backend) : World backend :=
  match w.main with
  | .waiting => { w with main := .claiming w.pending }
  | .claiming snapshot =>
    match claim lease choice w.server with
    | (some claimed,t) => { w with server := t,main := .taking snapshot claimed }
    | (none,t) => { w with server := t,main := .failed }
  | .taking snapshot claimed => { forget snapshot w with main := .choosing none (snapshot ++ claimed) }
  | .choosing selected (command :: rest) => choose choice selected command rest w
  | .choosing none [] => { w with main := if choice.fails then .failed else .waiting }
  | .choosing (some command) [] =>
    if command.kind = .release then
      { w with released := w.released ++ [command.id],main := if choice.raises then .failed else .releasing command }
    else { w with main := .starting command }
  | .answering selected command result error rest =>
    match acknowledge lease choice command result error w.server with
    | (true,t) => { w with server := t,main := .choosing selected rest }
    | (false,t) => { w with server := t,main := .failed }
  | .starting command =>
    if choice.fails then { w with main := .failed }
    else { w with
      started := w.started ++ [command.id]
      main := if choice.raises then .failed else .started command choice.opens }
  | .started command opened =>
    match acknowledge lease choice command none none w.server with
    | (true,t) =>
      if opened then { w with server := t,routers := w.routers ++ [{}],main := .turning w.routers.length }
      else { w with server := t,main := .completing }
    | (false,t) => { w with server := t,main := .failed }
  | .turning router =>
    { w with routers := w.routers.modify router (fun thread => { thread with stop := true }),main := .joining choice.fails }
  | .joining failing => { w with main := if failing then .failed else .completing }
  | .completing => { w with main := if choice.fails then .failed else .waiting }
  | .releasing command =>
    match acknowledge lease choice command (some "\x7b\x7d") none w.server with
    | (true,t) => { w with server := t,main := .ended }
    | (false,t) => { w with server := t,main := .failed }
  | .ended => w
  | .failed => w

/-- `_route_command`. -/
def route (choice : Choice) (command : RuntimeCommand) (rest : List RuntimeCommand) (w : World backend) :
    World backend × Routing :=
  match command.kind with
  | .start | .release => (defer command w,.routing rest)
  | .operation =>
    ((execute choice command w).2,
      .answering command (execute choice command w).1.1 (execute choice command w).1.2 true rest)
  | .steer | .agentCommand | .approve | .cancel =>
    (w,if choice.raises then .done else .answering command none choice.error choice.guarded rest)
  | .prepare | .checkpoint => (w,.answering command none (some unsupportedCommand) true rest)

/-- The next step of `_route_commands`. A `RuntimeClientError` ends the thread, as does any error outside the `try` of
    `_route_command`. -/
def routerStep (choice : Choice) (thread : Router) (w : World backend) : World backend × Routing :=
  match thread.phase with
  | .idle => (w,if thread.stop then .done else .polling)
  | .polling => (w,.claiming w.pending)
  | .claiming snapshot =>
    match claim lease choice w.server with
    | (some claimed,t) => ({ w with server := t },.taking snapshot claimed)
    | (none,t) => ({ w with server := t },.done)
  | .taking snapshot claimed => (forget snapshot w,.routing (snapshot ++ claimed))
  | .routing [] => (w,if thread.stop || choice.fails then .done else .idle)
  | .routing (command :: rest) => route choice command rest w
  | .answering command result error guarded rest =>
    match acknowledge lease choice command result error w.server with
    | (true,t) => ({ w with server := t },.routing rest)
    | (false,t) =>
      ({ w with server := t },if guarded && choice.transport then .answering command none choice.error false rest else .done)
  | .done => (w,.done)

inductive Action where
  | queue (now saved : Time) (commandId : String) (kind : CommandKind) (payload : Fields) (idempotencyKey : String)
  | main (choice : Choice)
  | router (k : Nat) (choice : Choice)

def step (w : World backend) : Action → World backend
  | .queue now saved commandId kind payload key =>
    { w with server := ((commandStore backend).queueCommand now saved commandId lease.runId kind payload key w.server).2 }
  | .main choice => mainStep lease choice w
  | .router k choice =>
    match w.routers[k]? with
    | none => w
    | some thread =>
      { (routerStep lease choice thread w).1 with
        routers := w.routers.set k { thread with phase := (routerStep lease choice thread w).2 } }

end

end Cowork.RuntimeWorker
