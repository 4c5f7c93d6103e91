import Cowork.Json
import Mathlib.Data.List.Basic

/-!
The relay of a remote turn: `stream_remote_replies` reads the conversation's reply
stream in batches, skips the replies of other turns and yields its own up to the first
that ends the turn (`Protocol`). Only an own `turn_failed` whose error is no text breaks
it off without an end.
-/
namespace Cowork.RemoteReplies
open Json List

inductive Mode where
  | persistent
  | ephemeral
deriving DecidableEq

def Mode.text : Mode → String
  | .persistent => "persistent"
  | .ephemeral => "ephemeral"

def modeOf (value : Option Value) : Option Mode :=
  if value = some (.str "persistent") then some .persistent
  else if value = some (.str "ephemeral") then some .ephemeral
  else none

inductive Kind where
  | progress
  | cell
  | error
  | turnDelta
  | turnStep
  | turnMemory
  | turnSkill
  | turnHistory
  | turnCompaction
  | turnCompleted
  | turnFailed
deriving DecidableEq

def Kind.word : Kind → String
  | .progress => "progress"
  | .cell => "cell"
  | .error => "error"
  | .turnDelta => "turn_delta"
  | .turnStep => "turn_step"
  | .turnMemory => "turn_memory"
  | .turnSkill => "turn_skill"
  | .turnHistory => "turn_history"
  | .turnCompaction => "turn_compaction"
  | .turnCompleted => "turn_completed"
  | .turnFailed => "turn_failed"

def Kind.all : List Kind :=
  [.progress,.cell,.error,.turnDelta,.turnStep,.turnMemory,.turnSkill,.turnHistory,.turnCompaction,.turnCompleted,
    .turnFailed]

def Kind.content : Kind → Bool
  | .turnDelta | .turnStep | .turnMemory | .turnSkill | .turnHistory | .turnCompaction | .turnCompleted => true
  | .progress | .cell | .error | .turnFailed => false

def Kind.terminal : Kind → Bool
  | .turnCompleted | .turnFailed => true
  | _ => false

structure TurnReply where
  kind : Kind
  data : Fields
deriving DecidableEq

/-- `TurnReplyHeader.model_validate_json`; nothing is a validation error. -/
def correlationOf : Value → Option String
  | .obj fields =>
    match fields.get "correlation_id" with
    | some (.str id) => some id
    | _ => none
  | _ => none

def kindOf : Option Value → Option Kind
  | some (.str word) => Kind.all.find? fun kind => kind.word = word
  | _ => none

def dataOf : Option Value → Option Fields
  | none => some .nil
  | some (.obj fields) => some fields
  | some _ => none

/-- `TurnReply.model_validate_json`; nothing is a validation error. -/
def TurnReply.validate : Value → Option TurnReply
  | .obj fields =>
    match fields.get "correlation_id",kindOf (fields.get "kind"),dataOf (fields.get "data") with
    | some (.str _),some kind,some data => some ⟨kind,data⟩
    | _,_,_ => none
  | _ => none

/-- `remote_turn_error` on a text, a code and a message, and `_remote_reset_at` on a code and a text. -/
structure Classes where
  turnError : String → String × String
  resetAt : String → String → Option String

inductive After where
  | goes (authorized : Option Mode)
  | returns
  | idles
  | raises
deriving DecidableEq

def After.ended : After → Bool
  | .goes _ => false
  | .returns | .idles | .raises => true

def workspacePermissionFailure : Fields :=
  fieldsOf [("error",.str "WorkspacePermissionUnavailable: worker storage authority could not be verified"),
    ("code",.str "permission_unavailable"),
    ("message",.str "Your current permissions could not be verified. Try again.")]

def authorization (mode : Mode) : TurnReply :=
  ⟨.progress,fieldsOf [("phase",.str "workspace_authorized"),("workspace_mode",.str mode.text)]⟩

def refusal : List TurnReply × After := ([⟨.turnFailed,workspacePermissionFailure⟩],.returns)

/-- `error or ""`, of which `strip` takes a text and nothing else. -/
def errorText : Option Value → Option String
  | none => some ""
  | some (.str error) => some error
  | some value => if value.truthy then none else some ""

/-- The data of a failed turn with the code and message that the caller streams; nothing when its error is no text. -/
def classified (classes : Classes) (data : Fields) : Option Fields :=
  match errorText (data.get "error") with
  | none => none
  | some error =>
    let (code,message) := classes.turnError error
    let rest := ((data.put "code" (.str code)).put "message" (.str message)).drop "reset_at"
    match data.get "reset_at" with
    | some (.str value) =>
      match classes.resetAt code value with
      | some instant => some (rest.put "reset_at" (.str instant))
      | none => some rest
    | _ => some rest

def authorize (requested : Mode) (authorized : Option Mode) (resolved : Option Mode) : List TurnReply × After :=
  match resolved with
  | none => refusal
  | some mode =>
    if requested = .ephemeral ∧ mode ≠ .ephemeral ∨ authorized ≠ none ∧ authorized ≠ some mode then refusal
    else ([authorization mode],.goes (some mode))

/-- One own reply in the loop of `stream_remote_replies`. -/
def react (classes : Classes) (requested : Mode) (authorized : Option Mode) (reply : TurnReply) :
    List TurnReply × After :=
  if reply.kind = .progress ∧ reply.data.get "phase" = some (.str "workspace_authorized") then
    authorize requested authorized (modeOf (reply.data.get "workspace_mode"))
  else if reply.kind = .error ∨ reply.kind.content = true ∧ authorized = none then refusal
  else if reply.kind = .turnFailed then
    if reply.data.get "code" = some (.str "permission_unavailable") then refusal
    else
      match classified classes reply.data with
      | some data => ([⟨.turnFailed,data⟩],.returns)
      | none => ([],.raises)
  else if reply.kind = .turnCompleted then ([reply],.returns)
  else if reply.kind.content = true then ([reply],.goes authorized)
  else ([],.goes authorized)

/-- What one `xread` returns: nothing, until a time of the monotonic clock, or entries with the time the loop comes to
    each. -/
inductive Read where
  | quiet (now : Int)
  | batch (entries : List (Value × Int))

structure Turn where
  correlationId : String
  requested : Mode
  idleTimeout : Int
  classes : Classes

structure Relay where
  yields : List TurnReply
  after : After
  lastReplyAt : Int

def unresponsiveWorkerError : String := "TurnWorkerUnresponsive: the turn worker stopped responding"

def unresponsive (classes : Classes) : TurnReply :=
  ⟨.turnFailed,fieldsOf [("error",.str unresponsiveWorkerError),
    ("code",.str (classes.turnError unresponsiveWorkerError).1),
    ("message",.str (classes.turnError unresponsiveWorkerError).2)]⟩

section
variable (turn : Turn)

def relayEntries (authorized : Option Mode) (last : Int) : List (Value × Int) → Relay
  | [] => ⟨[],.goes authorized,last⟩
  | (payload,now) :: rest =>
    match correlationOf payload with
    | none => ⟨[],.raises,last⟩
    | some id =>
      if id ≠ turn.correlationId then relayEntries authorized last rest
      else
        match TurnReply.validate payload with
        | none => ⟨[],.raises,last⟩
        | some reply =>
          match react turn.classes turn.requested authorized reply with
          | (yields,.goes authorized') =>
            let more := relayEntries authorized' now rest
            { more with yields := yields ++ more.yields }
          | (yields,ended) => ⟨yields,ended,now⟩

/-- The loop of `stream_remote_replies`. -/
def relayReads (authorized : Option Mode) (last : Int) : List Read → List TurnReply × After
  | [] => ([],.goes authorized)
  | .quiet now :: rest =>
    if 0 < turn.idleTimeout ∧ turn.idleTimeout < now - last then ([unresponsive turn.classes],.idles)
    else relayReads authorized last rest
  | .batch entries :: rest =>
    match relayEntries turn authorized last entries with
    | ⟨yields,.goes authorized',last'⟩ =>
      let (more,after) := relayReads authorized' last' rest
      (yields ++ more,after)
    | ⟨yields,ended,_⟩ => (yields,ended)

/-- What `stream_remote_replies` yields from its start on. -/
def streamRemoteReplies (start : Int) (reads : List Read) : List TurnReply × After := relayReads turn none start reads

def payloads : List Read → List Value
  | [] => []
  | .quiet _ :: rest => payloads rest
  | .batch entries :: rest => entries.map Prod.fst ++ payloads rest

def own (stream : List Value) : List TurnReply :=
  stream.filterMap fun payload =>
    if correlationOf payload = some turn.correlationId then TurnReply.validate payload else none

def Parses (stream : List Value) : Prop :=
  ∀ payload ∈ stream, ∃ id, correlationOf payload = some id ∧
    (id = turn.correlationId → (TurnReply.validate payload).isSome = true)

def relay (authorized : Option Mode) : List TurnReply → List TurnReply × After
  | [] => ([],.goes authorized)
  | reply :: rest =>
    match react turn.classes turn.requested authorized reply with
    | (yields,.goes authorized') =>
      let (more,after) := relay authorized' rest
      (yields ++ more,after)
    | ended => ended

end

inductive Follows (requested : Mode) : Option Mode → List TurnReply → After → Prop where
  | waits (authorized : Option Mode) : Follows requested authorized [] (.goes authorized)
  | breaks (authorized : Option Mode) : Follows requested authorized [] .raises
  | ends {authorized : Option Mode} {reply : TurnReply} {after : After} (terminal : reply.kind.terminal = true)
      (allowed : reply.kind.content = true → authorized ≠ none) (finished : after = .returns ∨ after = .idles) :
    Follows requested authorized [reply] after
  | authorizes {authorized : Option Mode} {mode : Mode} {more : List TurnReply} {after : After}
      (granted : requested = .ephemeral → mode = .ephemeral) (same : authorized = none ∨ authorized = some mode)
      (follows : Follows requested (some mode) more after) :
    Follows requested authorized (authorization mode :: more) after
  | relays {authorized : Option Mode} {reply : TurnReply} {more : List TurnReply} {after : After}
      (content : reply.kind.content = true) (open_ : reply.kind.terminal = false) (allowed : authorized ≠ none)
      (follows : Follows requested authorized more after) :
    Follows requested authorized (reply :: more) after

/-- An end comes last, and the relay ends with one; content comes after an authorization; one mode is reported, and
    not persistent when ephemeral was requested. -/
structure Protocol (requested : Mode) (yields : List TurnReply) (after : After) : Prop where
  last : ∀ front reply back, yields = front ++ reply :: back → reply.kind.terminal = true →
    back = [] ∧ after.ended = true
  ends : after.ended = true → ∃ front reply, yields = front ++ [reply] ∧ reply.kind.terminal = true
  authorized : ∀ front reply back, yields = front ++ reply :: back → reply.kind.content = true →
    ∃ mode, authorization mode ∈ front
  modes : ∃ mode, (requested = .ephemeral → mode = .ephemeral) ∧
    ∀ reply ∈ yields, reply.kind = .progress → reply = authorization mode

/-- A failure whose error is no text, which `remote_turn_error` cannot strip. -/
def Untyped (reply : TurnReply) : Prop :=
  reply.kind = .turnFailed ∧ reply.data.get "code" ≠ some (.str "permission_unavailable") ∧
    errorText (reply.data.get "error") = none

/-- No own failure that the relay gets to has an error that is no text; it gets to an entry when the reads before it,
    and the entries before it in its batch, leave the relay going. -/
def Typed (turn : Turn) (start : Int) (reads : List Read) : Prop :=
  ∀ before front payload now back after authorized reply,
    reads = before ++ .batch (front ++ (payload,now) :: back) :: after →
    (streamRemoteReplies turn start (before ++ [.batch front])).2 = .goes authorized →
    correlationOf payload = some turn.correlationId → TurnReply.validate payload = some reply → ¬Untyped reply

section
variable {turn : Turn} {requested : Mode} {authorized : Option Mode} {reply : TurnReply}

theorem react_cases (classes : Classes) (requested : Mode) (authorized : Option Mode) (reply : TurnReply) :
    (react classes requested authorized reply = ([],.raises) ∧ Untyped reply) ∨
    (∃ end_, react classes requested authorized reply = ([end_],.returns) ∧ end_.kind.terminal = true ∧
      (end_.kind.content = true → authorized ≠ none) ∧ ¬Untyped reply) ∨
    (∃ mode, react classes requested authorized reply = ([authorization mode],.goes (some mode)) ∧
      (requested = .ephemeral → mode = .ephemeral) ∧ (authorized = none ∨ authorized = some mode) ∧ ¬Untyped reply) ∨
    (react classes requested authorized reply = ([reply],.goes authorized) ∧ reply.kind.content = true ∧
      reply.kind.terminal = false ∧ authorized ≠ none ∧ ¬Untyped reply) ∨
    (react classes requested authorized reply = ([],.goes authorized) ∧ ¬Untyped reply) := by
  have refused : ¬Untyped reply → react classes requested authorized reply = refusal →
      ∃ end_, react classes requested authorized reply = ([end_],.returns) ∧ end_.kind.terminal = true ∧
        (end_.kind.content = true → authorized ≠ none) ∧ ¬Untyped reply :=
    fun typed same => ⟨_,same,rfl,nofun,typed⟩
  by_cases progress : reply.kind = .progress ∧ reply.data.get "phase" = some (.str "workspace_authorized")
  · grind only [Untyped,react,authorize,modeOf]
  by_cases denied : reply.kind = .error ∨ reply.kind.content = true ∧ authorized = none
  · refine .inr (.inl (refused ?_ ?_))
    · rintro ⟨failed,-⟩
      rw [failed] at denied
      rcases denied with never | ⟨never,-⟩ <;> cases never
    · unfold react
      rw [if_neg progress,if_pos denied]
  by_cases failed : reply.kind = .turnFailed
  · by_cases unavailable : reply.data.get "code" = some (.str "permission_unavailable")
    · refine .inr (.inl (refused (fun untyped => untyped.2.1 unavailable) ?_))
      unfold react
      rw [if_neg progress,if_neg denied,if_pos failed,if_pos unavailable]
    · have runs : react classes requested authorized reply =
          match classified classes reply.data with
          | some data => ([⟨.turnFailed,data⟩],.returns)
          | none => ([],.raises) := by
        unfold react
        rw [if_neg progress,if_neg denied,if_pos failed,if_neg unavailable]
      cases error : errorText (reply.data.get "error") with
      | none =>
        have none_ : classified classes reply.data = none := by simp only [classified,error]
        rw [none_] at runs
        exact .inl ⟨runs,failed,unavailable,error⟩
      | some text =>
        have typed : ¬Untyped reply := fun untyped => by rw [untyped.2.2] at error; cases error
        obtain ⟨data,some_⟩ : ∃ data, classified classes reply.data = some data := by
          simp only [classified,error]
          split
          · split <;> exact ⟨_,rfl⟩
          · exact ⟨_,rfl⟩
        rw [some_] at runs
        exact .inr (.inl ⟨_,runs,rfl,nofun,typed⟩)
  have typed : ¬Untyped reply := fun untyped => failed untyped.1
  obtain ⟨-,granted⟩ := not_or.mp denied
  by_cases completed : reply.kind = .turnCompleted
  · refine .inr (.inl ⟨reply,?_,?_,fun content none_ => granted ⟨content,none_⟩,typed⟩)
    · unfold react
      rw [if_neg progress,if_neg denied,if_neg failed,if_pos completed]
    · rw [completed]; rfl
  by_cases content : reply.kind.content = true
  · refine .inr (.inr (.inr (.inl ⟨?_,content,?_,fun none_ => granted ⟨content,none_⟩,typed⟩)))
    · unfold react
      rw [if_neg progress,if_neg denied,if_neg failed,if_neg completed,if_pos content]
    · cases kind : reply.kind <;> first | rfl | exact absurd kind completed | exact absurd kind failed
  · refine .inr (.inr (.inr (.inr ⟨?_,typed⟩)))
    unfold react
    rw [if_neg progress,if_neg denied,if_neg failed,if_neg completed,if_neg content]

variable {yields : List TurnReply} {after : After} {authorized' : Option Mode}

theorem relay_cons_goes
    (goes : react turn.classes turn.requested authorized reply = (yields,.goes authorized')) (rest : List TurnReply) :
    relay turn authorized (reply :: rest) = (yields ++ (relay turn authorized' rest).1,(relay turn authorized' rest).2) := by
  simp only [relay,goes]

theorem relay_cons_ends {ended : List TurnReply × After}
    (ends : react turn.classes turn.requested authorized reply = ended) (finished : ended.2.ended = true)
    (rest : List TurnReply) : relay turn authorized (reply :: rest) = ended := by
  obtain ⟨yields,after⟩ := ended
  cases after with
  | goes authorized' => cases finished
  | _ => simp only [relay,ends]

theorem relay_follows (authorized : Option Mode) (replies : List TurnReply) :
    Follows turn.requested authorized (relay turn authorized replies).1 (relay turn authorized replies).2 := by
  induction replies generalizing authorized with
  | nil => exact .waits authorized
  | cons reply rest ih =>
    rcases react_cases turn.classes turn.requested authorized reply with
      ⟨runs,-⟩ | ⟨end_,runs,terminal,allowed,-⟩ | ⟨mode,runs,granted,same,-⟩ | ⟨runs,content,open_,allowed,-⟩ | ⟨runs,-⟩
    · rw [relay_cons_ends runs rfl]; exact .breaks authorized
    · rw [relay_cons_ends runs rfl]; exact .ends terminal allowed (.inl rfl)
    · rw [relay_cons_goes runs]; exact .authorizes granted same (ih _)
    · rw [relay_cons_goes runs]; exact .relays content open_ allowed (ih _)
    · rw [relay_cons_goes runs]; exact ih authorized

theorem relay_busy (authorized : Option Mode) (replies : List TurnReply) :
    (relay turn authorized replies).2 ≠ .idles := by
  induction replies generalizing authorized <;> grind only [relay,react_cases]

theorem relay_append (authorized : Option Mode) (front back : List TurnReply) :
    (∃ authorized', (relay turn authorized front).2 = .goes authorized' ∧
      relay turn authorized (front ++ back) =
        ((relay turn authorized front).1 ++ (relay turn authorized' back).1,(relay turn authorized' back).2)) ∨
    (relay turn authorized front).2.ended = true ∧
      relay turn authorized (front ++ back) = relay turn authorized front := by
  induction front generalizing authorized with
  | nil => exact .inl ⟨authorized,rfl,rfl⟩
  | cons reply rest ih =>
    rw [cons_append]
    cases runs : react turn.classes turn.requested authorized reply with
    | mk yields after =>
      cases after with
      | goes authorized' =>
        rw [relay_cons_goes runs,relay_cons_goes runs]
        rcases ih authorized' with ⟨next,goes,same⟩ | ⟨finished,same⟩
        · exact .inl ⟨next,goes,by rw [same,append_assoc]⟩
        · exact .inr ⟨finished,by rw [same]⟩
      | _ =>
        rw [relay_cons_ends runs rfl,relay_cons_ends runs rfl]
        exact .inr ⟨rfl,rfl⟩

section
variable {payload : Value} {last now : Int} {entries front rest : List (Value × Int)}

theorem relayEntries_goes (header : correlationOf payload = some turn.correlationId)
    (read : TurnReply.validate payload = some reply)
    (runs : react turn.classes turn.requested authorized reply = (yields,.goes authorized')) :
    (relayEntries turn authorized last ((payload,now) :: rest)).after = (relayEntries turn authorized' now rest).after := by
  simp only [relayEntries,header,read,runs,ne_eq,not_true_eq_false,if_false]

theorem relayEntries_ends (header : correlationOf payload = some turn.correlationId)
    (read : TurnReply.validate payload = some reply)
    (runs : react turn.classes turn.requested authorized reply = (yields,after)) (ended : after.ended = true) :
    (relayEntries turn authorized last ((payload,now) :: rest)).after = after := by
  cases after with
  | goes _ => cases ended
  | _ => simp only [relayEntries,header,read,runs,ne_eq,not_true_eq_false,if_false]

theorem relayEntries_other {id : String} (header : correlationOf payload = some id) (other : id ≠ turn.correlationId) :
    relayEntries turn authorized last ((payload,now) :: rest) = relayEntries turn authorized last rest := by
  simp only [relayEntries,header,if_pos other]

theorem relayEntries_cons (turn : Turn) (authorized : Option Mode) (last : Int) (entry : Value × Int) :
    (∃ authorized' last', ∀ rest,
      (relayEntries turn authorized last (entry :: rest)).after = (relayEntries turn authorized' last' rest).after) ∨
    ∃ ended, ended.ended = true ∧ ∀ rest, (relayEntries turn authorized last (entry :: rest)).after = ended := by
  obtain ⟨payload,now⟩ := entry
  cases header : correlationOf payload with
  | none => exact .inr ⟨.raises,rfl,fun _ => by simp only [relayEntries,header]⟩
  | some id =>
    by_cases mine : id = turn.correlationId
    · subst mine
      cases read : TurnReply.validate payload with
      | none =>
        refine .inr ⟨.raises,rfl,fun _ => ?_⟩
        simp only [relayEntries,header,read,ne_eq,not_true_eq_false,if_false]
      | some reply =>
        rcases runs : react turn.classes turn.requested authorized reply with ⟨yields,after⟩
        cases after with
        | goes authorized' => exact .inl ⟨authorized',now,fun _ => relayEntries_goes header read runs⟩
        | _ => exact .inr ⟨_,rfl,fun _ => relayEntries_ends header read runs rfl⟩
    · exact .inl ⟨authorized,last,fun _ => congrArg Relay.after (relayEntries_other header mine)⟩

theorem relayEntries_append
    (goes : (relayEntries turn authorized last front).after = .goes authorized') (rest : List (Value × Int)) :
    ∃ last', (relayEntries turn authorized last (front ++ rest)).after = (relayEntries turn authorized' last' rest).after := by
  induction front generalizing authorized last with
  | nil => cases goes; exact ⟨last,rfl⟩
  | cons entry front ih =>
    rw [cons_append]
    rcases relayEntries_cons turn authorized last entry with ⟨next,last',same⟩ | ⟨ended,finished,same⟩
    · rw [same] at goes ⊢
      exact ih goes
    · rw [same] at goes
      subst goes; cases finished

theorem relayEntries_raises (parses : Parses turn (entries.map Prod.fst))
    (raises : (relayEntries turn authorized last entries).after = .raises) :
    ∃ front payload now back authorized' reply, entries = front ++ (payload,now) :: back ∧
      (relayEntries turn authorized last front).after = .goes authorized' ∧
      correlationOf payload = some turn.correlationId ∧ TurnReply.validate payload = some reply ∧ Untyped reply := by
  induction entries generalizing authorized last with
  | nil => cases raises
  | cons entry rest ih =>
    obtain ⟨payload,now⟩ := entry
    obtain ⟨id,header,valid⟩ := parses payload (by simp)
    have later : Parses turn (rest.map Prod.fst) := fun other member => parses other (mem_cons_of_mem _ member)
    by_cases mine : id = turn.correlationId
    · subst mine
      obtain ⟨reply,read⟩ := Option.isSome_iff_exists.mp (valid rfl)
      rcases runs : react turn.classes turn.requested authorized reply with ⟨yields,after⟩
      cases after with
      | goes authorized' =>
        rw [relayEntries_goes header read runs] at raises
        obtain ⟨front,bad,time,back,next,failed,rfl,goes,found⟩ := ih later raises
        exact ⟨(payload,now) :: front,bad,time,back,next,failed,rfl,(relayEntries_goes header read runs).trans goes,found⟩
      | raises =>
        refine ⟨[],payload,now,rest,authorized,reply,rfl,rfl,header,read,?_⟩
        grind only [react_cases]
      | _ => rw [relayEntries_ends header read runs rfl] at raises; cases raises
    · rw [relayEntries_other header mine] at raises
      obtain ⟨front,bad,time,back,next,failed,rfl,goes,found⟩ := ih later raises
      refine ⟨(payload,now) :: front,bad,time,back,next,failed,rfl,?_,found⟩
      rw [relayEntries_other header mine]; exact goes

end

theorem relayReads_batch (authorized : Option Mode) (last : Int) (entries : List (Value × Int)) (rest : List Read) :
    (∃ authorized' last', (relayEntries turn authorized last entries).after = .goes authorized' ∧
      ∀ more, (relayReads turn authorized last (.batch entries :: more)).2 = (relayReads turn authorized' last' more).2) ∨
    (relayEntries turn authorized last entries).after.ended = true ∧
      (relayReads turn authorized last (.batch entries :: rest)).2 = (relayEntries turn authorized last entries).after := by
  rcases runs : relayEntries turn authorized last entries with ⟨yields,after,last'⟩
  cases after with
  | goes authorized' => exact .inl ⟨authorized',last',rfl,fun more => by simp only [relayReads,runs]⟩
  | _ => exact .inr ⟨rfl,by simp only [relayReads,runs]⟩

theorem typed_of_whole {start : Int} {reads : List Read} (whole : (streamRemoteReplies turn start reads).2 ≠ .raises) :
    Typed turn start reads := by
  rintro before front payload now back after authorized reply rfl goes header read untyped
  refine whole ?_
  clear whole
  unfold streamRemoteReplies at goes ⊢
  have breaks : ∀ known last, (relayEntries turn known last ((payload,now) :: back)).after = .raises := by
    intro known last
    have runs : react turn.classes turn.requested known reply = ([],.raises) := by grind only [react_cases]
    exact relayEntries_ends header read runs rfl
  generalize none = known at goes ⊢
  induction before generalizing known start with
  | nil =>
    rcases relayReads_batch known start front [] with ⟨known',last',open_,-⟩ | ⟨ended,same⟩
    · obtain ⟨last,same⟩ := relayEntries_append open_ ((payload,now) :: back)
      rw [breaks known' last] at same
      rcases relayReads_batch known start (front ++ (payload,now) :: back) after with ⟨_,_,never,-⟩ | ⟨-,ends⟩
      · rw [same] at never; cases never
      · exact ends.trans same
    · rw [nil_append,same] at goes
      rw [goes] at ended; cases ended
  | cons read before ih =>
    cases read with
    | quiet now =>
      simp only [cons_append,relayReads] at goes ⊢
      split_ifs at goes ⊢
      exact ih known goes
    | batch entries =>
      rw [cons_append] at goes ⊢
      rcases relayReads_batch known start entries (before ++ [.batch front]) with ⟨known',last',-,same⟩ | ⟨ended,same⟩
      · rw [same] at goes ⊢
        exact ih known' goes
      · rw [same] at goes
        rw [goes] at ended; cases ended

theorem whole_of_typed {start : Int} {reads : List Read} (parses : Parses turn (payloads reads))
    (typed : Typed turn start reads) : (streamRemoteReplies turn start reads).2 ≠ .raises := by
  suffices broken : ∀ known, (relayReads turn known start reads).2 = .raises →
      ∃ before front payload now back after authorized reply,
        reads = before ++ .batch (front ++ (payload,now) :: back) :: after ∧
        (relayReads turn known start (before ++ [.batch front])).2 = .goes authorized ∧
        correlationOf payload = some turn.correlationId ∧ TurnReply.validate payload = some reply ∧ Untyped reply by
    intro raises
    obtain ⟨before,front,payload,now,back,after,authorized,reply,split,goes,header,read,untyped⟩ := broken none raises
    exact typed before front payload now back after authorized reply split goes header read untyped
  clear typed
  induction reads generalizing start with
  | nil => intro known raises; cases raises
  | cons read rest ih =>
    intro known raises
    cases read with
    | quiet now =>
      simp only [relayReads] at raises
      split_ifs at raises with idle
      obtain ⟨before,front,payload,time,back,after,next,reply,rfl,goes,found⟩ := ih parses known raises
      refine ⟨.quiet now :: before,front,payload,time,back,after,next,reply,rfl,?_,found⟩
      simp only [cons_append,relayReads,if_neg idle]
      exact goes
    | batch entries =>
      have here : Parses turn (entries.map Prod.fst) := fun payload member => parses payload (mem_append_left _ member)
      have later : Parses turn (payloads rest) := fun payload member => parses payload (mem_append_right _ member)
      rcases relayReads_batch known start entries rest with ⟨known',last',-,same⟩ | ⟨-,same⟩
      · rw [same] at raises
        obtain ⟨before,front,payload,time,back,after,next,reply,rfl,goes,found⟩ := ih later known' raises
        exact ⟨.batch entries :: before,front,payload,time,back,after,next,reply,rfl,(same _).trans goes,found⟩
      · rw [same] at raises
        obtain ⟨front,payload,time,back,next,reply,rfl,goes,found⟩ := relayEntries_raises here raises
        refine ⟨[],front,payload,time,back,rest,next,reply,rfl,?_,found⟩
        rcases relayReads_batch known start front [] with ⟨_,_,reached,ends⟩ | ⟨ended,-⟩
        · rw [goes] at reached
          cases reached; exact ends []
        · rw [goes] at ended; cases ended

theorem own_append (front back : List Value) : own turn (front ++ back) = own turn front ++ own turn back :=
  filterMap_append

theorem relayEntries_own {entries : List (Value × Int)} (parses : Parses turn (entries.map Prod.fst))
    (authorized : Option Mode) (last : Int) :
    (relayEntries turn authorized last entries).yields = (relay turn authorized (own turn (entries.map Prod.fst))).1 ∧
      (relayEntries turn authorized last entries).after = (relay turn authorized (own turn (entries.map Prod.fst))).2 := by
  induction entries generalizing authorized last with
  | nil => exact ⟨rfl,rfl⟩
  | cons entry rest ih =>
    obtain ⟨payload,now⟩ := entry
    obtain ⟨id,header,valid⟩ := parses payload (by simp)
    have later : Parses turn (rest.map Prod.fst) := fun other member => parses other (mem_cons_of_mem _ member)
    by_cases mine : id = turn.correlationId
    · obtain ⟨reply,read⟩ := Option.isSome_iff_exists.mp (valid mine)
      have first : own turn (((payload,now) :: rest).map Prod.fst) = reply :: own turn (rest.map Prod.fst) := by
        simp [own,header,mine,read]
      grind only [relayEntries,relay]
    grind [own,relayEntries]

theorem relayReads_own {reads : List Read} (parses : Parses turn (payloads reads)) (authorized : Option Mode) (last : Int) :
    ((relayReads turn authorized last reads).2 ≠ .idles ∧
      relayReads turn authorized last reads = relay turn authorized (own turn (payloads reads))) ∨
    ∃ front authorized', (relay turn authorized front).2 = .goes authorized' ∧
      relayReads turn authorized last reads = ((relay turn authorized front).1 ++ [unresponsive turn.classes],.idles) := by
  induction reads generalizing authorized last with
  | nil => exact .inl ⟨by simp [relayReads],rfl⟩
  | cons read rest ih =>
    cases read with
    | quiet now =>
      by_cases idle : 0 < turn.idleTimeout ∧ turn.idleTimeout < now - last
      · exact .inr ⟨[],authorized,rfl,by simp only [relayReads,if_pos idle]; rfl⟩
      grind only [relayReads,payloads]
    | batch entries =>
      have here : Parses turn (entries.map Prod.fst) :=
        fun payload member => parses payload (mem_append_left _ member)
      have later : Parses turn (payloads rest) := fun payload member => parses payload (mem_append_right _ member)
      obtain ⟨yielded,left⟩ := relayEntries_own here authorized last
      have split : own turn (payloads (.batch entries :: rest)) =
          own turn (entries.map Prod.fst) ++ own turn (payloads rest) := own_append _ _
      rcases runs : relayEntries turn authorized last entries with ⟨yields,after,last'⟩
      rw [runs] at yielded left
      simp only at yielded left
      cases after with
      | goes authorized' =>
        have goes : relayReads turn authorized last (.batch entries :: rest) =
            (yields ++ (relayReads turn authorized' last' rest).1,(relayReads turn authorized' last' rest).2) := by
          simp only [relayReads,runs]
        rw [goes,split]
        rcases ih later authorized' last' with ⟨busy,same⟩ | ⟨front,next,open_,same⟩
        · refine .inl ⟨busy,?_⟩
          rcases @relay_append turn authorized (own turn (entries.map Prod.fst)) (own turn (payloads rest)) with
            ⟨mode,reached,whole⟩ | ⟨finished,-⟩
          · rw [← left] at reached
            cases reached
            rw [whole,same,yielded]
          · rw [← left] at finished; cases finished
        · refine .inr ⟨own turn (entries.map Prod.fst) ++ front,next,?_⟩
          rcases @relay_append turn authorized (own turn (entries.map Prod.fst)) front with
            ⟨mode,reached,whole⟩ | ⟨finished,-⟩
          · grind only
          · rw [← left] at finished; cases finished
      | _ =>
        have ends : relayReads turn authorized last (.batch entries :: rest) =
            relay turn authorized (own turn (entries.map Prod.fst)) := by
          simp only [relayReads,runs]
          exact Prod.ext yielded left
        rcases @relay_append turn authorized (own turn (entries.map Prod.fst)) (own turn (payloads rest)) with
          ⟨mode,reached,-⟩ | ⟨-,whole⟩
        · rw [← left] at reached; cases reached
        · refine .inl ⟨?_,by rw [ends,split,whole]⟩
          rw [ends]; exact relay_busy _ _

theorem Follows.idles (follows : Follows requested authorized yields (.goes authorized'))
    {end_ : TurnReply} (failed : end_.kind = .turnFailed) : Follows requested authorized (yields ++ [end_]) .idles := by
  generalize left : After.goes authorized' = after at follows
  induction follows with
  | waits => exact .ends (by rw [failed]; rfl) (by rw [failed]; intro never; cases never) (.inr rfl)
  | breaks => cases left
  | ends _ _ finished =>
    subst left
    rcases finished with never | never <;> cases never
  | authorizes granted same _ ih => exact .authorizes granted same (ih left)
  | relays content open_ allowed _ ih => exact .relays content open_ allowed (ih left)

section
variable (follows : Follows requested authorized yields after)
include follows

theorem Follows.last {front back : List TurnReply} {reply : TurnReply} (split : yields = front ++ reply :: back)
    (terminal : reply.kind.terminal = true) : back = [] ∧ after.ended = true := by
  induction follows generalizing front with
  | waits | breaks => simp at split
  | ends _ _ finished =>
    cases front with
    | nil =>
      simp only [nil_append,List.cons.injEq] at split
      rcases finished with rfl | rfl <;> exact ⟨split.2.symm,rfl⟩
    | cons => simp at split
  | authorizes _ _ _ ih => cases front <;> grind only [cons_append,Kind.terminal,authorization]
  | relays _ open_ _ _ ih => cases front <;> grind only [cons_append]

theorem Follows.ended (whole : after ≠ .raises) (ended : after.ended = true) :
    ∃ front reply, yields = front ++ [reply] ∧ reply.kind.terminal = true := by
  induction follows with
  | waits => cases ended
  | breaks => exact absurd rfl whole
  | ends terminal _ _ => exact ⟨[],_,rfl,terminal⟩
  | authorizes _ _ _ ih | relays _ _ _ _ ih =>
    obtain ⟨front,reply,rfl,terminal⟩ := ih whole ended
    exact ⟨_ :: front,reply,rfl,terminal⟩

theorem Follows.granted {front back : List TurnReply} {reply : TurnReply} (split : yields = front ++ reply :: back)
    (content : reply.kind.content = true) :
    authorized ≠ none ∨ ∃ mode, authorization mode ∈ front := by
  induction follows generalizing front with
  | waits | breaks => simp at split
  | ends _ allowed _ =>
    cases front with
    | nil =>
      simp only [nil_append,List.cons.injEq] at split
      rw [split.1] at allowed
      exact .inl (allowed content)
    | cons => simp at split
  | @authorizes _ mode _ _ _ _ _ ih =>
    cases front with
    | nil =>
      simp only [nil_append,List.cons.injEq] at split
      rw [← split.1] at content; cases content
    | cons first front =>
      simp only [cons_append,List.cons.injEq] at split
      exact .inr ⟨mode,by simp [split.1]⟩
  | relays _ _ allowed _ ih => exact .inl allowed

theorem Follows.modes (granted : ∀ mode, authorized = some mode → requested = .ephemeral → mode = .ephemeral) :
    ∃ mode, (requested = .ephemeral → mode = .ephemeral) ∧ (∀ known, authorized = some known → known = mode) ∧
      ∀ reply ∈ yields, reply.kind = .progress → reply = authorization mode := by
  have alone : ∀ {authorized : Option Mode} {yields : List TurnReply},
      (∀ mode, authorized = some mode → requested = .ephemeral → mode = .ephemeral) →
      (∀ reply ∈ yields, reply.kind ≠ .progress) → ∃ mode, (requested = .ephemeral → mode = .ephemeral) ∧
        (∀ known, authorized = some known → known = mode) ∧
        ∀ reply ∈ yields, reply.kind = .progress → reply = authorization mode := by
    intro authorized yields granted none_
    refine ⟨authorized.getD .ephemeral,?_,?_,fun reply member progress => absurd progress (none_ reply member)⟩
    · intro asked
      cases authorized with
      | none => rfl
      | some mode => exact granted mode rfl asked
    · rintro known rfl
      rfl
  induction follows with
  | waits | breaks => exact alone granted (by simp)
  | @ends _ end_ _ terminal _ _ =>
    refine alone granted ?_
    intro reply member progress
    rw [mem_singleton.mp member] at progress
    rw [progress] at terminal; cases terminal
  | @authorizes authorized mode more after ok same _ ih =>
    obtain ⟨one,asked,known,rest⟩ := ih fun other same asked => by cases same; exact ok asked
    refine ⟨mode,ok,?_,?_⟩
    all_goals grind only [mem_cons]
  | @relays _ first _ _ content _ _ _ ih =>
    obtain ⟨mode,asked,known,rest⟩ := ih granted
    refine ⟨mode,asked,known,forall_mem_cons.mpr ⟨fun progress => ?_,rest⟩⟩
    rw [progress] at content; cases content

end

theorem protocol_of_follows (follows : Follows requested none yields after)
    (whole : after ≠ .raises) : Protocol requested yields after where
  last := fun _ _ _ split terminal => follows.last split terminal
  ends := follows.ended whole
  authorized := by
    intro front reply back split content
    rcases follows.granted split content with never | found
    · exact absurd rfl never
    · exact found
  modes := by
    obtain ⟨mode,asked,-,rest⟩ := follows.modes fun _ never => by cases never
    exact ⟨mode,asked,rest⟩

theorem not_protocol_of_raises (follows : Follows requested authorized yields .raises) :
    ¬Protocol requested yields .raises := by
  intro protocol
  obtain ⟨front,reply,split,terminal⟩ := protocol.ends rfl
  suffices open_ : ∀ reply ∈ yields, reply.kind.terminal = false by
    rw [open_ reply (by simp [split])] at terminal
    cases terminal
  clear protocol split terminal
  generalize left : After.raises = after at follows
  induction follows with
  | waits => cases left
  | breaks => simp
  | ends _ _ finished =>
    subst left
    rcases finished with never | never <;> cases never
  | authorizes _ _ _ ih => exact forall_mem_cons.mpr ⟨rfl,ih left⟩
  | relays _ open_ _ _ ih => exact forall_mem_cons.mpr ⟨open_,ih left⟩

end

theorem protocol_iff {start : Int} {reads : List Read} (parses : Parses turn (payloads reads)) :
    Protocol turn.requested (streamRemoteReplies turn start reads).1 (streamRemoteReplies turn start reads).2 ↔
      (streamRemoteReplies turn start reads).2 ≠ .raises := by
  have follows : Follows turn.requested none (streamRemoteReplies turn start reads).1
      (streamRemoteReplies turn start reads).2 := by
    unfold streamRemoteReplies
    rcases relayReads_own parses none start with ⟨-,same⟩ | ⟨front,authorized,goes,same⟩
    · rw [same]; exact relay_follows none _
    · rw [same]
      have before := @relay_follows turn none front
      rw [goes] at before
      exact before.idles rfl
  refine ⟨fun protocol raises => ?_,protocol_of_follows follows⟩
  rw [raises] at protocol follows
  exact not_protocol_of_raises follows protocol

/-- What the relay yields follows the protocol exactly when it gets to no failure without a text; and if it does not
    idle out, it depends on the turn's own replies alone. -/
theorem remote_replies_protocol (turn : Turn) (start : Int) (reads : List Read) (parses : Parses turn (payloads reads)) :
    (Protocol turn.requested (streamRemoteReplies turn start reads).1 (streamRemoteReplies turn start reads).2 ↔
      Typed turn start reads) ∧
    ∀ (start' : Int) (reads' : List Read), Parses turn (payloads reads') →
      own turn (payloads reads') = own turn (payloads reads) →
      (streamRemoteReplies turn start reads).2 ≠ .idles → (streamRemoteReplies turn start' reads').2 ≠ .idles →
      streamRemoteReplies turn start' reads' = streamRemoteReplies turn start reads := by
  refine ⟨(protocol_iff parses).trans ⟨typed_of_whole,whole_of_typed parses⟩,?_⟩
  intro start' reads' parses' replies busy busy'
  unfold streamRemoteReplies at busy busy' ⊢
  rcases relayReads_own parses none start with ⟨-,same⟩ | ⟨_,_,-,idles⟩
  · rcases relayReads_own parses' none start' with ⟨-,same'⟩ | ⟨_,_,-,idles'⟩
    · rw [same,same',replies]
    · rw [idles'] at busy'
      exact absurd rfl busy'
  · rw [idles] at busy
    exact absurd rfl busy

def plainClasses : Classes := ⟨fun error => ("anton_error",error),fun _ _ => none⟩

def sampleTurn : Turn := ⟨"mine",.persistent,60,plainClasses⟩

def payload (id kind : String) (data : List (String × Value)) : Value :=
  .obj (fieldsOf [("correlation_id",.str id),("kind",.str kind),("data",.obj (fieldsOf data))])

def authorizedPayload : Value :=
  payload "mine" "progress" [("phase",.str "workspace_authorized"),("workspace_mode",.str "persistent")]

def completedReads : List Read :=
  [.batch [(payload "other" "turn_poem" [],1),(authorizedPayload,2)],.quiet 30,
    .batch [(payload "mine" "turn_delta" [("text",.str "Hi")],40),(payload "other" "turn_completed" [],41)],
    .batch [(payload "mine" "turn_completed" [],50)]]

theorem completedReads_follow_protocol :
    ((streamRemoteReplies sampleTurn 0 completedReads).1.map (·.kind) = [.progress,.turnDelta,.turnCompleted]) ∧
    Protocol .persistent (streamRemoteReplies sampleTurn 0 completedReads).1
      (streamRemoteReplies sampleTurn 0 completedReads).2 := by
  have parses : Parses sampleTurn (payloads completedReads) := by
    intro reply member
    simp only [completedReads,payloads,List.map,cons_append,nil_append,mem_cons,not_mem_nil,or_false]
      at member
    rcases member with rfl | rfl | rfl | rfl | rfl
    · exact ⟨"other",by decide,by decide⟩
    · exact ⟨"mine",by decide,by decide⟩
    · exact ⟨"mine",by decide,by decide⟩
    · exact ⟨"other",by decide,by decide⟩
    · exact ⟨"mine",by decide,by decide⟩
  have typed : Typed sampleTurn 0 completedReads := typed_of_whole (by decide)
  exact ⟨by decide,(remote_replies_protocol sampleTurn 0 completedReads parses).1.mpr typed⟩

def untypedReads : List Read :=
  [.batch [(authorizedPayload,1),(payload "mine" "turn_failed" [("error",.num 5)],2)]]

theorem untyped_error_breaks_off :
    streamRemoteReplies sampleTurn 0 untypedReads = ([authorization .persistent],.raises) ∧
    (∀ reply ∈ payloads untypedReads, (TurnReply.validate reply).isSome = true) := by decide

end Cowork.RemoteReplies
