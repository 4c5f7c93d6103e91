import Cowork.KeyedRows
import Cowork.Transitions

/-!
The tenant-scoped session of `db/scoped.py` and the session that it wraps. A statement
of a model keyed by organization is built with the organization's filter, a row got by
its key is checked after it was loaded, and what is added or deleted is stamped or
refused, then and before every flush. The wrapped session has one instance for each row
loaded, and loses its transaction when a write is refused. The caller's instances are a
list that only grows: those it built, those returned, and those from elsewhere
(`Action.hold`).
-/
namespace Cowork.ScopedSession
open KeyedRows

inductive PersonalResource where
  | conversations | projects | files | skills | connections | schedules | pins | memory | settings
deriving DecidableEq

/-- `MODEL_RESOURCE`: the resource behind a table. -/
def modelResource : List (String × PersonalResource) :=
  [("conversations",.conversations),("messages",.conversations),("channel_installations",.conversations),
    ("channel_bindings",.conversations),("channel_events",.conversations),("projects",.projects),
    ("artifact_identities",.projects),("artifact_owner_choices",.projects),
    ("shared_resource_attributions",.projects),("shared_resource_mutations",.projects),("files",.files),
    ("custom_connectors",.connections),("skill_access",.skills),("skill_user_setting",.skills),
    ("schedules",.schedules),("pins",.pins),("settings",.settings)]

structure TenantScope where
  orgMode : Bool := false
  orgId : Option String := none
  userId : Option String := none
  personal : Bool := false
  personalResources : List PersonalResource := []

def TenantScope.partitioned (scope : TenantScope) : Bool := scope.orgMode || scope.personal

def TenantScope.partitionedFor (scope : TenantScope) (resource : PersonalResource) : Bool :=
  scope.orgMode || (scope.personal && scope.personalResources.contains resource)

/-- A mapped class, as the scoped layer sees it: whether it has an `org_id`, typed as a UUID or not, and a
    `created_by`. -/
structure Table where
  name : String
  hasOrg : Bool
  orgIsUuid : Bool
  hasAuthor : Bool
deriving DecidableEq

/-- What an `org_id` holds. A string is never equal to a UUID. -/
inductive OrgId where
  | text (value : String)
  | uuid (value : Nat)
deriving DecidableEq

structure Row where
  table : Table
  key : Nat
  org : Option OrgId
  createdBy : Option String
  data : Nat
deriving DecidableEq

def Row.place (row : Row) : Table × Nat := (row.table,row.key)

abbrev Database := Rows Row.place

inductive Refusal where
  | missingTenantScope | tenantMismatch
  | integrity | staleData | invalidRequest | pendingRollback
deriving DecidableEq

/-- A session's scope, how a string is read as a UUID, and whether it flushes before it queries. -/
structure Setting where
  scope : TenantScope
  uuidOf : String → Option Nat
  autoflush : Bool

def partitionsModel (scope : TenantScope) (table : Table) : Bool :=
  match modelResource.lookup table.name with
  | none => scope.partitioned
  | some resource => scope.partitionedFor resource

/-- `_is_org_scoped`; the settings table keeps its own tenancy. -/
def isOrgScoped (table : Table) : Bool := if table.name = "settings" then false else table.hasOrg

def keyed (s : Setting) (table : Table) : Bool := isOrgScoped table && partitionsModel s.scope table

def partitions (s : Setting) (table : Table) : Except Refusal Bool :=
  if !keyed s table then .ok false
  else if s.scope.orgId.isNone then .error .missingTenantScope
  else .ok true

/-- `_org_id_for`: the scope's organization as the table's column holds it. It is
    asked for only where the scope has one. -/
def orgIdFor (s : Setting) (table : Table) : Except Refusal OrgId :=
  match s.scope.orgId with
  | none => .error .missingTenantScope
  | some org =>
    if !table.orgIsUuid then .ok (.text org)
    else
      match s.uuidOf org with
      | some value => .ok (.uuid value)
      | none => .error .tenantMismatch

def required (s : Setting) (table : Table) : Except Refusal (Option OrgId) :=
  match partitions s table with
  | .error why => .error why
  | .ok false => .ok none
  | .ok true => (orgIdFor s table).map some

/-- Where an instance stands with the session. All but the first two have the primary key they were loaded or written
    under. -/
inductive State where
  | transient
  | pending
  | persistent (key : Nat)
  | deleting (key : Nat)
  | deleted (key : Nat)
  | detached (key : Nat)
deriving DecidableEq

def State.identity : State → Option Nat
  | .transient => none
  | .pending => none
  | .persistent key => some key
  | .deleting key => some key
  | .deleted key => some key
  | .detached key => some key

structure Instance where
  row : Row
  changed : Bool
  state : State
deriving DecidableEq

def Instance.standsAt (i : Instance) (place : Table × Nat) : Bool :=
  i.row.table = place.1 && (i.state = .persistent place.2 || i.state = .deleting place.2)

def loaded (row : Row) : Instance := ⟨row,false,.persistent row.key⟩

/-- `add` and the flush hook: a row without an organization gets the scope's, and one with another is refused. -/
def stampOrReject (s : Setting) (i : Instance) : Except Refusal Instance :=
  match required s i.row.table with
  | .error why => .error why
  | .ok none => .ok i
  | .ok (some org) =>
    match i.row.org with
    | none => .ok { i with row := { i.row with org := some org }, changed := true }
    | some held => if held = org then .ok i else .error .tenantMismatch

def stampAuthor (s : Setting) (i : Instance) : Instance :=
  if s.scope.userId.any (· ≠ "") && i.row.table.hasAuthor && i.row.createdBy.isNone &&
      partitionsModel s.scope i.row.table then
    { i with row := { i.row with createdBy := s.scope.userId }, changed := true }
  else i

def sweep (visit : Instance → Except Refusal Instance) : List Instance → List Instance × Option Refusal
  | [] => ([],none)
  | i :: rest =>
    match visit i with
    | .error why => (i :: rest,some why)
    | .ok next => (next :: (sweep visit rest).1,(sweep visit rest).2)

def sweeps : List (Instance → Except Refusal Instance) → List Instance → List Instance × Option Refusal
  | [],heap => (heap,none)
  | visit :: rest,heap =>
    match sweep visit heap with
    | (swept,some why) => (swept,some why)
    | (swept,none) => sweeps rest swept

def stampNew (s : Setting) (i : Instance) : Except Refusal Instance :=
  match i.state with
  | .pending => stampOrReject s i
  | _ => .ok i

def stampDirty (s : Setting) (i : Instance) : Except Refusal Instance :=
  match i.state with
  | .persistent _ => if i.changed then stampOrReject s i else .ok i
  | _ => .ok i

def stampAuthorNew (s : Setting) (i : Instance) : Except Refusal Instance :=
  match i.state with
  | .pending => .ok (stampAuthor s i)
  | _ => .ok i

def refuseDeletion (s : Setting) (i : Instance) : Except Refusal Instance :=
  match i.state with
  | .deleting _ =>
    match partitions s i.row.table with
    | .error why => .error why
    | .ok false => .ok i
    | .ok true =>
      match i.row.org with
      | none => .ok i
      | some held =>
        match orgIdFor s i.row.table with
        | .error why => .error why
        | .ok org => if held = org then .ok i else .error .tenantMismatch
  | _ => .ok i

def beforeFlush (s : Setting) : List Instance → List Instance × Option Refusal :=
  sweeps [stampNew s,stampDirty s,stampAuthorNew s,refuseDeletion s]

def emit (write : Database → Instance → Except Refusal (Database × Instance)) :
    Database → List Instance → Except Refusal (Database × List Instance)
  | db,[] => .ok (db,[])
  | db,i :: rest =>
    match write db i with
    | .error why => .error why
    | .ok (next,i) =>
      match emit write next rest with
      | .error why => .error why
      | .ok (last,rest) => .ok (last,i :: rest)

def update (db : Database) (i : Instance) : Except Refusal (Database × Instance) :=
  match i.state with
  | .persistent key =>
    if i.changed then
      match db.find (i.row.table,key) with
      | none => .error .staleData
      | some _ =>
        match db.replace (i.row.table,key) i.row with
        | none => .error .integrity
        | some next => .ok (next,⟨i.row,false,.persistent i.row.key⟩)
    else .ok (db,i)
  | _ => .ok (db,i)

def insert (heap : List Instance) (db : Database) (i : Instance) : Except Refusal (Database × Instance) :=
  match i.state with
  | .pending =>
    if heap.any (fun other => other.row.table = i.row.table && other.state = .deleting i.row.key) then
      match db.find i.row.place with
      | none => .error .staleData
      | some _ =>
        match db.replace i.row.place i.row with
        | none => .error .integrity
        | some next => .ok (next,loaded i.row)
    else
      match db.insert i.row with
      | none => .error .integrity
      | some next => .ok (next,loaded i.row)
  | _ => .ok (db,i)

def erase (heap : List Instance) (db : Database) (i : Instance) : Except Refusal (Database × Instance) :=
  match i.state with
  | .deleting key =>
    if heap.any (fun other => other.row.table = i.row.table && other.state = .persistent key) then
      .ok (db,{ i with state := .deleted key })
    else .ok (db.erase (i.row.table,key),{ i with state := .deleted key })
  | _ => .ok (db,i)

def writeOut (db : Database) (heap : List Instance) : Except Refusal (Database × List Instance) :=
  match emit update db heap with
  | .error why => .error why
  | .ok (updated,heap) =>
    match emit (insert heap) updated heap with
    | .error why => .error why
    | .ok (inserted,heap) => emit (erase heap) inserted heap

/-- A session in its transaction, with what was committed before it. A flush that the
    database refused ends the transaction: no call is served until it is rolled back. -/
structure Session where
  stored : Database
  committed : Database
  heap : List Instance
  failed : Bool

def flush (s : Setting) (w : Session) : Session × Option Refusal :=
  match beforeFlush s w.heap with
  | (heap,some why) => ({ w with heap := heap },some why)
  | (heap,none) =>
    match writeOut w.stored heap with
    | .error why => ({ w with stored := w.committed, heap := heap, failed := true },some why)
    | .ok (stored,heap) => ({ w with stored := stored, heap := heap },none)

def autoflushed (s : Setting) (w : Session) : Session × Option Refusal := if s.autoflush then flush s w else (w,none)

inductive Answer where
  | done
  | rows (found : List Instance)
  | one (found : Option Instance)
  | raised (why : Refusal)
deriving DecidableEq

def Answer.instances : Answer → List Instance
  | .rows found => found
  | .one found => found.toList
  | .done => []
  | .raised _ => []

/-- A statement as it is run, with its filter's organization and the models whose columns `ScopedSelect` passes on. -/
structure Statement where
  table : Table
  org : Option OrgId
  condition : Row → Bool := fun _ => true
  beside : List Table := []

def select (s : Setting) (table : Table) : Except Refusal Statement :=
  (required s table).map (fun org => { table := table, org := org })

def Statement.selected (q : Statement) (db : Database) : List Row :=
  db.rows.filter (fun row => row.table = q.table && q.org.all (fun org => row.org = some org) && q.condition row)

def Statement.result (q : Statement) (db : Database) : List Row :=
  q.selected db ++
    if (q.selected db).isEmpty then []
    else q.beside.flatMap (fun table => db.rows.filter (fun row => row.table = table))

def load (heap : List Instance) (row : Row) : List Instance × Instance :=
  match heap.find? (·.standsAt row.place) with
  | some i => (heap,i)
  | none => (heap ++ [loaded row],loaded row)

def loadAll : List Instance → List Row → List Instance × List Instance
  | heap,[] => (heap,[])
  | heap,row :: rest =>
    ((loadAll (load heap row).1 rest).1,(load heap row).2 :: (loadAll (load heap row).1 rest).2)

def exec (s : Setting) (w : Session) (q : Statement) : Session × Answer :=
  match autoflushed s w with
  | (w,some why) => (w,.raised why)
  | (w,none) =>
    ({ w with heap := (loadAll w.heap (q.result w.stored)).1 },.rows (loadAll w.heap (q.result w.stored)).2)

/-- The check of `get` on the row that the session gave it. -/
def mayReturn (s : Setting) (guarded : Bool) (row : Row) : Except Refusal Bool :=
  if guarded then (orgIdFor s row.table).map (fun org => row.org = some org) else .ok true

def get (s : Setting) (w : Session) (table : Table) (key : Nat) : Session × Answer :=
  match partitions s table with
  | .error why => (w,.raised why)
  | .ok guarded =>
    match w.heap.find? (·.standsAt (table,key)) with
    | some i =>
      match mayReturn s guarded i.row with
      | .error why => (w,.raised why)
      | .ok may => (w,.one (if may then some i else none))
    | none =>
      match autoflushed s w with
      | (w,some why) => (w,.raised why)
      | (w,none) =>
        match w.stored.find (table,key) with
        | none => (w,.one none)
        | some row =>
          match mayReturn s guarded row with
          | .error why => (w,.raised why)
          -- the instance of a row that is not returned is in nobody's hands
          | .ok false => (w,.one none)
          | .ok true => ({ w with heap := (load w.heap row).1 },.one (some (load w.heap row).2))

/-- `Session.add` on an instance. Only one instance of a row may stand in the session. -/
def attached (heap : List Instance) (i : Instance) : Except Refusal State :=
  match i.state with
  | .transient => .ok .pending
  | .pending => .ok .pending
  | .persistent key => .ok (.persistent key)
  | .deleting key => .ok (.persistent key)
  | .deleted _ => .error .invalidRequest
  | .detached key =>
    if heap.any (·.standsAt (i.row.table,key)) then .error .invalidRequest else .ok (.persistent key)

def add (s : Setting) (w : Session) (handle : Nat) (i : Instance) : Session × Answer :=
  match stampOrReject s i with
  | .error why => (w,.raised why)
  | .ok stamped =>
    let signed := if i.state = .transient then stampAuthor s stamped else stamped
    match attached w.heap signed with
    | .error why => ({ w with heap := w.heap.set handle signed },.raised why)
    | .ok state => ({ w with heap := w.heap.set handle { signed with state := state } },.done)

/-- `Session.delete` on an instance. -/
def marked (heap : List Instance) (i : Instance) : Except Refusal State :=
  match i.state with
  | .transient => .error .invalidRequest
  | .pending => .error .invalidRequest
  | .persistent key => .ok (.deleting key)
  | .deleting key => .ok (.deleting key)
  | .deleted key => .ok (.deleted key)
  | .detached key =>
    if heap.any (·.standsAt (i.row.table,key)) then .error .invalidRequest else .ok (.deleting key)

def delete (s : Setting) (w : Session) (handle : Nat) (i : Instance) : Session × Answer :=
  match required s i.row.table with
  | .error why => (w,.raised why)
  | .ok org =>
    if org.all (fun org => i.row.org = some org) then
      match marked w.heap i with
      | .error why => (w,.raised why)
      | .ok state => ({ w with heap := w.heap.set handle { i with state := state } },.done)
    else (w,.raised .tenantMismatch)

def commit (s : Setting) (w : Session) : Session × Answer :=
  match flush s w with
  | (w,some why) => (w,.raised why)
  | (w,none) => ({ w with committed := w.stored },.done)

inductive Change where
  | key (value : Nat)
  | org (value : Option OrgId)
  | createdBy (value : Option String)
  | data (value : Nat)

def Change.apply : Change → Row → Row
  | .key value,row => { row with key := value }
  | .org value,row => { row with org := value }
  | .createdBy value,row => { row with createdBy := value }
  | .data value,row => { row with data := value }

/-- The caller builds an instance, has one from another session, sets an attribute, or calls the session. -/
inductive Action where
  | create (row : Row)
  | hold (row : Row) (key : Nat)
  | assign (handle : Nat) (change : Change)
  | exec (table : Table) (condition : Row → Bool) (beside : List Table)
  | get (table : Table) (key : Nat)
  | add (handle : Nat)
  | delete (handle : Nat)
  | flush
  | commit

def Action.isCall : Action → Bool
  | .create _ => false
  | .hold _ _ => false
  | .assign _ _ => false
  | _ => true

def act (s : Setting) (w : Session) : Action → Session × Answer
  | .exec table condition beside =>
    match select s table with
    | .error why => (w,.raised why)
    | .ok q => exec s w { q with condition := condition, beside := beside }
  | .get table key => get s w table key
  | .add handle =>
    match w.heap[handle]? with
    | none => (w,.done)
    | some i => add s w handle i
  | .delete handle =>
    match w.heap[handle]? with
    | none => (w,.done)
    | some i => delete s w handle i
  | .flush =>
    match flush s w with
    | (w,some why) => (w,.raised why)
    | (w,none) => (w,.done)
  | .commit => commit s w
  | .create row => ({ w with heap := w.heap ++ [⟨row,false,.transient⟩] },.done)
  | .hold row key => ({ w with heap := w.heap ++ [⟨row,false,.detached key⟩] },.done)
  | .assign handle change =>
    ({ w with heap := w.heap.modify handle (fun i => { i with row := change.apply i.row, changed := true }) },.done)

structure History where
  session : Session
  answers : List Answer

def step (s : Setting) (h : History) (a : Action) : History :=
  if h.session.failed && a.isCall then ⟨h.session,h.answers ++ [.raised .pendingRollback]⟩
  else ⟨(act s h.session a).1,h.answers ++ [(act s h.session a).2]⟩

def opened (db : Database) : History := ⟨⟨db,db,[],false⟩,[]⟩

end Cowork.ScopedSession
