import Cowork.StreamFormatter

/-!
`handlers/response_routing.py`: `_gate` reads the provider's stream within its budgets
and `decide_route` turns the outcome into a decision. `router_decision` says which
streams give a direct answer. The patterns are parameters.
-/

namespace Cowork.RouterGate

abbrev Text := List Char

/-- The regular expressions, as the texts in which they are found. -/
structure Patterns where
  fileContext : Text → Bool
  namesChangeOrApproval : Text → Bool
  namesGateTool : Text → Bool
  namesForeignProduct : Text → Bool
  deniesOurProduct : Text → Bool
  imitatesApproval : Text → Bool

inductive Role
  | user
  | assistant
  | other
  deriving DecidableEq

inductive Block
  | text (text : Text)
  | toolUse (name : Text)
  | toolResult
  | image
  | other
  deriving DecidableEq

inductive Content
  | text (text : Text)
  | blocks (blocks : List Block)
  | other

structure Message where
  role : Role
  content : Content

def strip (text : Text) : Text :=
  ((text.dropWhile StreamFormatter.isSpace).reverse.dropWhile StreamFormatter.isSpace).reverse

def Block.condensed : Block → Text
  | .text words => words
  | .toolUse name => "[ran tool: ".toList ++ name ++ [']']
  | .toolResult => "[tool output omitted]".toList
  | .image => "[image]".toList
  | .other => []

def condenseContent : Content → Option Text
  | .text words => some words
  | .blocks parts => some (['\n'].intercalate ((parts.map Block.condensed).filter (· ≠ [])))
  | .other => none

def latestText (history : List Message) (role : Role) : Text :=
  ((history.reverse.find? fun m => m.role = role).bind fun m => condenseContent m.content).getD []

def condensed (older : List (Role × Text)) (m : Message) : List (Role × Text) :=
  let content := strip ((condenseContent m.content).getD [])
  if m.role = .other || content = [] then older
  else
    let content := if 1500 < content.length then content.take 1483 ++ "\n[… truncated …]".toList else content
    match older with
    | (role,text) :: rest =>
      if role = m.role then (role,text ++ '\n' :: content) :: rest else (m.role,content) :: older
    | [] => [(m.role,content)]

def textHistory (history : List Message) : List (Role × Text) :=
  ((history.foldl condensed []).take 16).reverse.dropWhile fun m => m.1 ≠ .user

def Content.has (block : Block → Bool) : Content → Bool
  | .blocks parts => parts.any block
  | _ => false

def Block.isUse : Block → Bool
  | .toolUse _ => true
  | _ => false

def ranTools : List Message → Bool
  | [] => false
  | m :: older => m.content.has (fun b => b.isUse || b = .toolResult) || (m.role ≠ .user && ranTools older)

def priorTurnRanTools (history : List Message) : Bool :=
  match (history.filter fun m => m.role ≠ .other).reverse with
  | [] => false
  | last :: older =>
    ranTools (if last.role = .user && !last.content.has (· = .toolResult) then older else last :: older)

inductive Failure
  | timeout
  | rejected (reason : String)
  | poolTimeout
  | cancelled
  | other

/-- What the provider's stream does next. A cancellation of the task arrives as a failure, too. -/
inductive Event
  | textDelta (text : Text)
  | toolUseStart
  | complete (toolCalls : Bool) (stopReason : String)
  | unknown
  | ended
  | raises (failure : Failure)

/-- `_GATE_FIRST_EVENT_SECONDS`, `_GATE_IDLE_SECONDS` and `_GATE_TOTAL_SECONDS` in milliseconds. -/
def gateFirstEvent : Nat := 2000
def gateIdle : Nat := 5000
def gateTotal : Nat := 10000

/-- The loop of `_gate` over events and the time each takes, with the time spent; a stream without a next event
    stalls. It gives the text, or none to delegate. -/
def collect : (spent perEvent : Nat) → Text → List (Nat × Event) → Except Failure (Option Text)
  | _,_,_,[] => .error .timeout
  | spent,perEvent,text,(delay,event) :: rest =>
    if gateTotal ≤ spent ∨ min perEvent (gateTotal - spent) < delay then .error .timeout
    else match event with
      | .toolUseStart => .ok none
      | .ended => .ok (some text)
      | .complete toolCalls stopReason =>
        if toolCalls || stopReason = "max_tokens" || stopReason = "length" then .ok none else .ok (some text)
      | .textDelta delta => collect (spent + delay) gateIdle (text ++ delta) rest
      | .unknown => collect (spent + delay) gateIdle text rest
      | .raises failure => .error failure

def checked (p : Patterns) (text : Text) : Except Failure (Option Text) :=
  let answer := strip text
  if answer = [] then .ok none
  else if p.namesGateTool answer then .error (.rejected "router_answer_named_gate_tool")
  else if p.namesForeignProduct answer then .error (.rejected "router_answer_named_foreign_product")
  else if p.deniesOurProduct answer then .error (.rejected "router_answer_denied_product")
  else if p.imitatesApproval answer then .error (.rejected "router_answer_imitated_approval")
  else .ok (some answer)

/-- `_gate`; the task may also be cancelled while the stream is closed. -/
def gate (p : Patterns) (cancelledClosing : Bool) (stream : List (Nat × Event)) : Except Failure (Option Text) :=
  if cancelledClosing then .error .cancelled
  else match collect 0 gateFirstEvent [] stream with
    | .ok (some text) => checked p text
    | .ok none => .ok none
    | .error failure => .error failure

structure RouterBinding where
  model : String
  label : String

inductive Route
  | directContext
  | delegatedAgentic

structure RouteDecision where
  route : Route
  reason : String
  provider : Option String := none
  model : Option String := none
  text : Text := []
  fallback : Bool := false

structure Request where
  history : List Message
  hasNonTextInput : Bool
  hasAttachments : Bool
  hasDisabledConnections : Bool
  afterRouterAnswer : Bool

def ineligibleReason (p : Patterns) (r : Request) : Option String :=
  if r.hasNonTextInput then some "non_text_input"
  else if r.hasAttachments then some "attachments_present"
  else if r.hasDisabledConnections then some "connection_context_present"
  else if p.fileContext (latestText r.history .user) then some "explicit_file_context"
  else if priorTurnRanTools r.history then some "prior_turn_ran_tools"
  else if r.afterRouterAnswer then some "follow_up_to_router_answer"
  else if p.namesChangeOrApproval (latestText r.history .user) then some "write_or_approval_request"
  else if textHistory r.history = [] then some "no_routable_history"
  else none

def delegated (reason : String) (binding : Option RouterBinding) (fallback : Bool) : RouteDecision :=
  { route := .delegatedAgentic, reason, provider := binding.map (·.label), model := binding.map (·.model), fallback }

/-- The outer `except` clauses. -/
def recovered (binding : Option RouterBinding) : Failure → Except Failure RouteDecision
  | .poolTimeout => .error .poolTimeout
  | .cancelled => .error .cancelled
  | _ => .ok (delegated "router_unavailable" binding true)

/-- `decide_route` with the binding given or made, which may raise, and the provider's stream. -/
def decideRoute (p : Patterns) (r : Request) (binding : Except Failure (Option RouterBinding)) (cancelledClosing : Bool)
    (stream : List (Nat × Event)) : Except Failure RouteDecision :=
  match ineligibleReason p r,binding with
  | some reason,_ => .ok (delegated reason none false)
  | none,.error failure => recovered none failure
  | none,.ok none => .ok (delegated "router_model_unavailable" none true)
  | none,.ok (some b) =>
    match gate p cancelledClosing stream with
    | .error .timeout => .ok (delegated "router_timeout" (some b) true)
    | .error (.rejected reason) => .ok (delegated reason (some b) false)
    | .error failure => recovered (some b) failure
    | .ok none => .ok (delegated "router_declined_direct_response" (some b) false)
    | .ok (some text) => .ok ⟨.directContext,"router_direct_response",b.label,b.model,text,false⟩

def Event.delta : Event → Text
  | .textDelta words => words
  | _ => []

def Event.goesOn : Event → Bool
  | .textDelta _ | .unknown => true
  | _ => false

def Event.finishes (event : Event) : Prop :=
  event = .ended ∨ ∃ reason, event = .complete false reason ∧ reason ≠ "max_tokens" ∧ reason ≠ "length"

/-- The text deltas before the event that finishes the stream, where nothing but text and unknown events comes before
    it. -/
def Finished (stream : List (Nat × Event)) (text : Text) : Prop :=
  ∃ before delay last after, stream = before ++ (delay,last) :: after ∧ last.finishes ∧
    (∀ entry ∈ before, entry.2.goesOn = true) ∧ text = before.flatMap fun entry => entry.2.delta

structure Answers (p : Patterns) (stream : List (Nat × Event)) (answer : Text) : Prop where
  finished : ∃ text, Finished stream text ∧ answer = strip text
  nonempty : answer ≠ []
  passes : p.namesGateTool answer = false ∧ p.namesForeignProduct answer = false ∧
    p.deniesOurProduct answer = false ∧ p.imitatesApproval answer = false

theorem finished_last (delay : Nat) {event : Event} (rest : List (Nat × Event)) (finishes : event.finishes) :
    Finished ((delay,event) :: rest) [] :=
  ⟨[],delay,event,rest,rfl,finishes,by simp,rfl⟩

theorem finished_cons {delay : Nat} {event : Event} {rest : List (Nat × Event)} {text : Text}
    (on : event.goesOn = true) (finished : Finished rest text) :
    Finished ((delay,event) :: rest) (event.delta ++ text) := by
  obtain ⟨before,d,last,after,rfl,finishes,quiet,rfl⟩ := finished
  exact ⟨(delay,event) :: before,d,last,after,rfl,finishes,List.forall_mem_cons.mpr ⟨on,quiet⟩,rfl⟩

theorem collect_some {spent perEvent : Nat} {text result : Text} {stream : List (Nat × Event)}
    (collected : collect spent perEvent text stream = .ok (some result)) :
    ∃ said, result = text ++ said ∧ Finished stream said := by
  induction stream generalizing spent perEvent text with
  | nil => cases collected
  | cons entry rest ih =>
    obtain ⟨delay,event⟩ := entry
    rw [collect.eq_def] at collected
    simp only at collected
    split at collected
    · cases collected
    · cases event with
      | toolUseStart | raises => cases collected
      | ended => cases collected; exact ⟨[],by simp,finished_last delay rest (.inl rfl)⟩
      | complete toolCalls stopReason =>
        simp only at collected
        split at collected
        · cases collected
        · cases collected
          refine ⟨[],by simp,finished_last delay rest (.inr ⟨stopReason,?_,?_,?_⟩)⟩
          all_goals simp_all
      | textDelta delta =>
        obtain ⟨said,rfl,finished⟩ := ih collected
        exact ⟨delta ++ said,by simp,finished_cons rfl finished⟩
      | unknown =>
        obtain ⟨said,rfl,finished⟩ := ih collected
        exact ⟨said,rfl,finished_cons rfl finished⟩

theorem gate_some {p : Patterns} {closing : Bool} {stream : List (Nat × Event)} {answer : Text}
    (passed : gate p closing stream = .ok (some answer)) : Answers p stream answer := by
  unfold gate at passed
  split_ifs at passed
  cases collected : collect 0 gateFirstEvent [] stream with
  | error failure => simp [collected] at passed
  | ok text =>
    cases text with
    | none => simp [collected] at passed
    | some text =>
      simp only [collected,checked] at passed
      split_ifs at passed with blank tool foreign denial imitation
      · cases passed
      · obtain rfl := Option.some.inj (Except.ok.inj passed)
        obtain ⟨said,rfl,finished⟩ := collect_some collected
        exact ⟨⟨_,finished,rfl⟩,blank,by simp_all⟩

theorem recovered_error {binding : Option RouterBinding} {failure raised : Failure}
    (errs : recovered binding failure = .error raised) : raised = .poolTimeout ∨ raised = .cancelled := by
  cases failure <;> simp_all [recovered]

theorem recovered_ok {binding : Option RouterBinding} {failure : Failure} {d : RouteDecision}
    (ok : recovered binding failure = .ok d) : d.route = .delegatedAgentic ∧ d.text = [] := by
  cases failure with
  | poolTimeout | cancelled => cases ok
  | timeout | rejected | other => cases ok; exact ⟨rfl,rfl⟩

/-- A direct decision carries an answer that the stream finished with, any other one is a delegation without text, and
    nothing is raised but the pool's timeout and the cancellation. -/
theorem router_decision (p : Patterns) (r : Request) (binding : Except Failure (Option RouterBinding)) (closing : Bool)
    (stream : List (Nat × Event)) :
    (∀ d, decideRoute p r binding closing stream = .ok d →
      d.route = .directContext ∧ Answers p stream d.text ∨ d.route = .delegatedAgentic ∧ d.text = []) ∧
      ∀ raised, decideRoute p r binding closing stream = .error raised →
        raised = .poolTimeout ∨ raised = .cancelled := by
  have declined (reason : String) (b : Option RouterBinding) (fallback : Bool) (d : RouteDecision)
      (ok : Except.ok (delegated reason b fallback) = (.ok d : Except Failure _)) :
      d.route = .directContext ∧ Answers p stream d.text ∨ d.route = .delegatedAgentic ∧ d.text = [] := by
    cases ok; exact .inr ⟨rfl,rfl⟩
  unfold decideRoute
  split
  · exact ⟨declined _ _ _,by simp⟩
  · exact ⟨fun d ok => .inr (recovered_ok ok),fun raised => recovered_error⟩
  · exact ⟨declined _ _ _,by simp⟩
  · split
    · exact ⟨declined _ _ _,by simp⟩
    · exact ⟨declined _ _ _,by simp⟩
    · exact ⟨fun d ok => .inr (recovered_ok ok),fun raised => recovered_error⟩
    · exact ⟨declined _ _ _,by simp⟩
    · rename_i passed
      refine ⟨?_,by simp⟩
      rintro d ⟨⟩; exact .inl ⟨rfl,gate_some passed⟩

def noPatterns : Patterns := ⟨fun _ => false,fun _ => false,fun _ => false,fun _ => false,fun _ => false,fun _ => false⟩

def hello : Request := ⟨[⟨.user,.text "Hello".toList⟩],false,false,false,false⟩

def completed : List (Nat × Event) := [(10,.textDelta ['H','i']),(10,.complete false "end_turn")]

theorem completed_answer_is_direct :
    ∃ d, decideRoute noPatterns hello (.ok (some ⟨"gate","minds_cloud"⟩)) false completed = .ok d ∧
      (d.route = .directContext ∧ Answers noPatterns completed d.text ∨ d.route = .delegatedAgentic ∧ d.text = []) :=
  ⟨_,rfl,(router_decision noPatterns hello (.ok (some ⟨"gate","minds_cloud"⟩)) false completed).1 _ rfl⟩

theorem cut_off_answer_is_direct : decideRoute noPatterns hello (.ok (some ⟨"gate","minds_cloud"⟩)) false
    [(10,.textDelta ['H','i']),(10,.ended)] =
      .ok ⟨.directContext,"router_direct_response",some "minds_cloud",some "gate",['H','i'],false⟩ := by rfl

end Cowork.RouterGate
