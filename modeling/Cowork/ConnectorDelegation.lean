import Cowork.Placement
import Cowork.Threads

/-!
`ConnectorDelegationService` (`connector_delegation.py`): bounded capabilities for the
connectors of a Task Run. `issue`, `authorize` and `revoke_for_run` are several store
operations each, with other calls between any two: a `Thread` says what is still to be
done, and `move` does the next one.
-/
namespace Cowork.ConnectorDelegation
open ControlModels Contracts Effects ControlStore ControlService Placement

/-- The arguments of `authorize`. -/
structure Request where
  grantId : String
  token : String
  action : String
  constraints : List (String × String) := []
  computerId : Option String := none
  deriving DecidableEq

def constraintNames (grant : ConnectorGrant) : List String := grant.resourceConstraints.map (fun entry => entry.1)

def actionConstraintNames (grant : ConnectorGrant) (action : String) : List String :=
  if action = "read_source" then ["url"]
  else if action = "pull_request_status" then ["target_url"]
  else if action = "search_work" then ["repository"]
  else constraintNames grant

/-- `required_names`: those of the action that the grant has, else all of the grant. -/
def requiredNames (grant : ConnectorGrant) (action : String) : List String :=
  let chosen := (actionConstraintNames grant action).filter (fun name => (constraintNames grant).contains name)
  if chosen = [] then constraintNames grant else chosen

def supplied (grant : ConnectorGrant) (requested : List (String × String)) (name : String) : Bool :=
  match grant.resourceConstraints.lookup name with
  | none => true
  | some allowed => requested.lookup name = some allowed

def validateConstraints (grant : ConnectorGrant) (action : String) (requested : List (String × String)) :
    Except Err Unit :=
  if (requiredNames grant action).all (supplied grant requested) then .ok ()
  else .error (.runtimeAuthenticationError "Connector capability is outside its resource scope")

section
variable (digest : String → String) (backend : Backend)

def validate (now : Time) (grant : ConnectorGrant) (run : TaskRun) (request : Request) : Except Err Unit :=
  if grant.revokedAt ≠ none ∨ grant.expiresAt ≤ now then
    .error (.runtimeAuthenticationError "Connector capability expired")
  else if grant.epoch ≠ run.epoch ∨ run.status.terminal = true then
    .error (.runtimeAuthenticationError "Connector capability belongs to a stale Task Run")
  else if grant.computerId ≠ run.computerId ∨ (request.computerId ≠ none ∧ request.computerId ≠ some grant.computerId) then
    .error (.runtimeAuthenticationError "Connector capability belongs to another computer")
  else match compareDigest grant.tokenHash (digest request.token) with
    | .error e => .error e
    | .ok false => .error (.runtimeAuthenticationError "Connector capability authentication failed")
    | .ok true =>
      if request.action ∉ grant.actions then
        .error (.runtimeAuthenticationError "Connector capability does not allow this action")
      else match validateConstraints grant request.action request.constraints with
        | .error e => .error e
        | .ok () =>
          if grant.maxUses ≤ grant.useCount then
            .error (.runtimeAuthenticationError "Connector capability use limit reached")
          else .ok ()

def used (now : Time) (grant : ConnectorGrant) : ConnectorGrant :=
  { grant with useCount := grant.useCount + 1,lastUsedAt := some now }

def withdrawn (now : Time) (grant : ConnectorGrant) : ConnectorGrant := { grant with revokedAt := some now }

theorem withdrawn_revoked (now : Time) (grant : ConnectorGrant) : (withdrawn now grant).revokedAt ≠ none := by
  simp [withdrawn]

/-- The operation `authorize_grant`, which also keeps the run it saw. -/
def authorizeGrant (now : Time) (request : Request) (grant : ConnectorGrant) (run : TaskRun) :
    Except Err (ConnectorGrant × TaskRun) :=
  match validate digest now grant run request with
  | .error e => .error e
  | .ok () => .ok (used now grant,run)

/-- The arguments of `issue`, with the id and the token it draws. -/
structure Order where
  runId : String
  provider : String
  connectionName : String
  actions : List String
  resourceConstraints : List (String × String) := []
  ttl : Nat := minutes 15
  grantId : String
  token : String

def providerOf (name : String) : Option Provider := [Provider.github,Provider.linear].find? (fun p => p.value = name)

/-- The grant that `issue` builds for a run that has not ended. Pydantic bounds the
    list of actions before `unique_actions` drops repeated ones. -/
def newGrant (now : Time) (order : Order) (run : TaskRun) : Except Err ConnectorGrant :=
  if run.status.terminal then .error (.stateConflict "Connector access is unavailable after a Task Run ends")
  else match providerOf order.provider with
    | none => .error (.validationError "ConnectorGrant")
    | some provider =>
      let grant : ConnectorGrant :=
        { id := order.grantId,runId := run.id,computerId := run.computerId,epoch := run.epoch,provider
          connectionName := order.connectionName,actions := order.actions.eraseDups
          resourceConstraints := order.resourceConstraints,tokenHash := digest order.token
          expiresAt := now + order.ttl,createdAt := now }
      if grant.valid && decide (order.actions.length ≤ 32) then .ok grant else .error (.validationError "ConnectorGrant")

structure Tick where
  now : Time
  auditId : String

def grantEvent (tick : Tick) (grant : ConnectorGrant) (actions : List String) : SecurityAuditEvent :=
  { id := tick.auditId,action := "connector.grant",outcome := .allowed,actorType := .system,targetId := grant.id
    runId := some grant.runId,computerId := some grant.computerId
    detail := grant.provider.value ++ ":" ++ ",".intercalate actions,createdAt := tick.now }

def allowEvent (tick : Tick) (request : Request) (grant : ConnectorGrant) (run : TaskRun) : SecurityAuditEvent :=
  { id := tick.auditId,action := "connector.invoke",outcome := .allowed,actorType := .agent,targetId := grant.id
    runId := some run.id,computerId := some (orDefault request.computerId run.computerId)
    detail := grant.provider.value ++ ":" ++ request.action,createdAt := tick.now }

def denyEvent (tick : Tick) (request : Request) (snapshot : ConnectorGrant) (text : String) : SecurityAuditEvent :=
  { id := tick.auditId,action := "connector.invoke",outcome := .denied,actorType := .agent,targetId := request.grantId
    runId := some snapshot.runId,computerId := request.computerId,detail := text,createdAt := tick.now }

def revokeEvent (tick : Tick) (runId : String) (grant : ConnectorGrant) : SecurityAuditEvent :=
  { id := tick.auditId,action := "connector.revoke",outcome := .completed,actorType := .system,targetId := grant.id
    runId := some runId,computerId := some grant.computerId,createdAt := tick.now }

inductive Outcome where
  | issued (grant : ConnectorGrant) (token : String)
  | authorized (grant : ConnectorGrant)
  | revoked (runId : String)
  | raised (e : Err)
  deriving DecidableEq

inductive Thread where
  /-- `issue`: save the grant. -/
  | granting (grant : ConnectorGrant) (token : String) (actions : List String)
  /-- `issue`: record the grant. -/
  | granted (grant : ConnectorGrant) (token : String) (actions : List String)
  /-- `authorize`: check and count, in one operation. -/
  | authorizing (request : Request) (snapshot : ConnectorGrant)
  /-- `authorize`: record the use. -/
  | allowing (request : Request) (grant : ConnectorGrant) (run : TaskRun)
  /-- `authorize`: record the refusal. -/
  | denying (request : Request) (snapshot : ConnectorGrant) (text : String)
  /-- `revoke_for_run`: the listed grants still to be seen to. -/
  | revoking (runId : String) (now : Time) (pending : List ConnectorGrant)
  /-- `revoke_for_run`: record the revocation of a grant. -/
  | revoked (runId : String) (now : Time) (grant : ConnectorGrant) (pending : List ConnectorGrant)
  | ended (outcome : Outcome)
  deriving DecidableEq

inductive Call where
  | issue (now : Time) (order : Order)
  | authorize (request : Request)
  | revokeForRun (now : Time) (runId : String)

/-- A call up to its first write: `get_run`, `get_grant` or `list_grants`. -/
def start (call : Call) (s : Docs) : Thread :=
  match call with
  | .issue now order =>
    match (get backend .runs order.runId s).1 with
    | .error e => .ended (.raised e)
    | .ok run =>
      match newGrant digest now order run with
      | .error e => .ended (.raised e)
      | .ok grant => .granting grant order.token order.actions
  | .authorize request =>
    match (get backend .grants request.grantId s).1 with
    | .error e => .ended (.raised e)
    | .ok snapshot => .authorizing request snapshot
  | .revokeForRun now runId =>
    match (listFor .grants runId s).1 with
    | .error e => .ended (.raised e)
    | .ok grants => .revoking runId now grants

/-- Go on as `next` when the operation returns, else end with what it raised. -/
def proceed {α : Type} (p : Prog Docs Err α) (next : α → Thread) (s : Docs) : Docs × Thread :=
  match p s with
  | (.ok a,s') => (s',next a)
  | (.error e,s') => (s',.ended (.raised e))

def move (tick : Tick) (s : Docs) : Thread → Docs × Thread
  | .granting grant token actions =>
    proceed (save backend 0 .grants grant) (fun saved => .granted saved token actions) s
  | .granted grant token actions =>
    proceed (recordSecurityEvent backend (grantEvent tick grant actions)) (fun _ => .ended (.issued grant token)) s
  | .authorizing request snapshot =>
    match updateGrantWith backend request.grantId (authorizeGrant digest tick.now request) s with
    | (.ok (grant,run),s') => (s',.allowing request grant run)
    | (.error (.runtimeAuthenticationError text),s') => (s',.denying request snapshot text)
    | (.error e,s') => (s',.ended (.raised e))
  | .allowing request grant run =>
    proceed (recordSecurityEvent backend (allowEvent tick request grant run)) (fun _ => .ended (.authorized grant)) s
  | .denying request snapshot text =>
    proceed (recordSecurityEvent backend (denyEvent tick request snapshot text))
      (fun _ => .ended (.raised (.runtimeAuthenticationError text))) s
  | .revoking runId _ [] => (s,.ended (.revoked runId))
  | .revoking runId now (grant :: rest) =>
    if grant.revokedAt ≠ none then (s,.revoking runId now rest)
    else proceed (save backend 0 .grants (withdrawn now grant)) (fun saved => .revoked runId now saved rest) s
  | .revoked runId now grant rest =>
    proceed (recordSecurityEvent backend (revokeEvent tick runId grant)) (fun _ => .revoking runId now rest) s
  | .ended outcome => (s,.ended outcome)

end

end Cowork.ConnectorDelegation
