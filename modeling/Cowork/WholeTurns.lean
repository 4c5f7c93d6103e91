import Cowork.Conversations
import Cowork.Transitions

/-!
The turns of a conversation. Their borders are found again from the roles and contents
of the rows, when a turn is deleted (`deleteTurn`) and when an interrupted one is
recovered (`recoverInterruptedTurn`). On a history of whole turns a delete cuts exactly
at a turn's question, and a recovery answers a last question.
-/
namespace Cowork.WholeTurns
open JsonText List Conversations Transitions

/-! ## Deleting a turn -/

inductive DeleteError where
  | notFound | alreadyAnswered | notABoundary

/-- The walk back from a reply, newest first: over the turn's tool rows and the question that opened it. -/
def walkBack (cutFrom : Nat) : List Message → Nat
  | [] => cutFrom
  | row :: earlier =>
    if row.isToolRow then walkBack (cutFrom - 1) earlier
    else if row.role = .user then cutFrom - 1
    else cutFrom

def answered (later : List Message) : Bool :=
  match later.find? fun row => !row.isToolRow with
  | some row => row.role = .assistant && row.content.truthy
  | none => false

def cutFrom (rows : List Message) (place : Nat) (anchor : Message) : Except DeleteError Nat :=
  if anchor.role = .assistant ∧ anchor.isToolRow = false then .ok (walkBack place (rows.take place).reverse)
  else if anchor.role = .user ∧ anchor.isToolRow = false then
    if answered (rows.drop (place + 1)) then .error .alreadyAnswered else .ok place
  else .error .notABoundary

def deleteTurn (c : Conversation) (messageId : Nat) : Except DeleteError Conversation :=
  match c.rows.findIdx? fun row => row.id = messageId with
  | none => .error .notFound
  | some place =>
    match c.rows[place]? with
    | none => .error .notFound
    | some anchor => (cutFrom c.rows place anchor).map c.cut

/-! ## Recovering a turn -/

/-- `messages[index]`: a negative index counts from the end, and one past an end raises. -/
def pythonIndex (length : Nat) (index : Int) : Option Nat :=
  if 0 ≤ index then if index.toNat < length then some index.toNat else none
  else if (-index).toNat ≤ length then some (length - (-index).toNat) else none

/-- `messages[start:]`. -/
def sliceFrom (start : Int) (rows : List Message) : List Message :=
  rows.drop (if 0 ≤ start then start.toNat else rows.length - (-start).toNat)

inductive Follower where
  | nothing
  | question
  | reply (row : Message)

def follower : List Message → Follower
  | [] => .nothing
  | row :: rest =>
    if row.isToolRow then follower rest
    else if row.role = .user then .question
    else if row.role = .assistant then .reply row
    else follower rest

def isTerminalEvent (event : Fields) : Bool :=
  eventType event = some (.str "response.completed".toList) || eventType event = some (.str "response.failed".toList)

def addEvent (c : Conversation) (messageId : Nat) (event : Fields) : Conversation :=
  c.revise (fun m => if m.id = messageId then { m with events := m.events ++ [event] } else m)
    (fun m => by split <;> rfl)

structure Recovered where
  text : Text
  terminalEvent : Fields
  replyId : Nat
  harness : Option Text
  now : Int

def Recovered.turn (found : Recovered) : AssistantTurn :=
  { id := found.replyId, text := found.text, events := [found.terminalEvent], harness := found.harness, toolRows := [],
    now := found.now }

/-- `recover_interrupted_turn`: whether the turn was recovered, and the conversation after it; none if it raises. -/
def recoverInterruptedTurn (c : Conversation) (turnId : Int) (found : Recovered) : Option (Bool × Conversation) :=
  if (c.rows.length : Int) ≤ turnId then some (false,c)
  else
    match (pythonIndex c.rows.length turnId).bind fun place => c.rows[place]? with
    | none => none
    | some question =>
      if question.role ≠ .user ∨ question.isToolRow = true then some (false,c)
      else
        match follower (sliceFrom (turnId + 1) c.rows) with
        | .question => some (false,c)
        | .reply reply =>
          if reply.events.any isTerminalEvent then some (false,c)
          else some (true,(addEvent c reply.id found.terminalEvent).clearPending (some question.id))
        | .nothing =>
          ((c.clearPending (some question.id)).saveAssistantTurn found.turn).map fun saved => (true,saved)

/-! ## Whole turns -/

def blocksOf : Content → List Block
  | .blocks parts => parts
  | _ => []

/-- Every result follows its call, and every call gets its result; `calls` are open. -/
def paired (calls : List Text) : List Block → Bool
  | [] => calls.isEmpty
  | .toolUse id _ :: rest => paired (id :: calls) rest
  | .toolResult id _ :: rest => decide (id ∈ calls) && paired (calls.erase id) rest
  | .plain _ :: _ => false

/-- A question, and nothing more or its paired tool rows and its reply. Only one without a reply can be pending. -/
structure Turn where
  question : Message
  tools : List Message
  reply : Option Message
  asks : question.role = .user ∧ question.isToolRow = false
  hidden : ∀ row ∈ tools, row.isToolRow = true ∧ row.pending = false
  pairs : paired [] (tools.flatMap fun row => blocksOf row.content) = true
  answers : ∀ row, reply = some row → row.role = .assistant ∧ row.isToolRow = false ∧ row.pending = false ∧
    question.pending = false
  whole : reply = none → tools = []

def Turn.rows (turn : Turn) : List Message := turn.question :: (turn.tools ++ turn.reply.toList)

def history (turns : List Turn) : List Message := turns.flatMap Turn.rows

@[simp] theorem history_nil : history [] = [] := rfl

@[simp] theorem history_cons (turn : Turn) (rest : List Turn) :
    history (turn :: rest) = turn.rows ++ history rest := rfl

@[simp] theorem history_append (front rest : List Turn) : history (front ++ rest) = history front ++ history rest := by
  simp [history]

def Turn.saysSomething (turn : Turn) : Bool := turn.reply.any fun row => row.content.truthy

/-- A delete may be anchored at a turn's reply, and at its question unless the reply has a text. -/
def Turn.Anchors (turn : Turn) (id : Nat) : Prop :=
  (∃ row, turn.reply = some row ∧ row.id = id) ∨ (turn.question.id = id ∧ turn.saysSomething = false)

/-! ## Where a delete cuts -/

variable {row : Message}

theorem findIdx_id {front rest : List Message} (unique : ((front ++ row :: rest).map fun m => m.id).Nodup) :
    (front ++ row :: rest).findIdx? (fun m => m.id = row.id) = some front.length := by
  have fresh : ∀ m ∈ front, m.id ≠ row.id := by grind only [map_append,nodup_append,mem_map_of_mem,mem_cons_self]
  rw [findIdx?_append,findIdx?_eq_none_iff.mpr (by simpa using fresh)]
  simp [findIdx?_cons]

theorem deleteTurn_at {c : Conversation} {front rest : List Message} (rows : c.rows = front ++ row :: rest) :
    deleteTurn c row.id = (cutFrom (front ++ row :: rest) front.length row).map c.cut := by
  have unique := c.unique
  rw [rows] at unique
  simp only [deleteTurn,rows,findIdx_id unique]
  simp

theorem walkBack_tools (tools : List Message) (hidden : ∀ row ∈ tools, row.isToolRow = true) (question : Message)
    (asks : question.role = .user ∧ question.isToolRow = false) (front : List Message) :
    walkBack (front.length + 1 + tools.length) (tools ++ question :: front) = front.length := by
  induction tools <;> grind [walkBack]

theorem cut_reply (front : List Message) (turn : Turn) (reply : turn.reply = some row) (rest : List Message) :
    cutFrom ((front ++ turn.question :: turn.tools) ++ row :: rest) (front ++ turn.question :: turn.tools).length row =
      .ok front.length := by
  have shape := turn.answers row reply
  rw [cutFrom,if_pos ⟨shape.1,shape.2.1⟩,take_left]
  have place : (front ++ turn.question :: turn.tools).length = front.length + 1 + turn.tools.reverse.length := by
    simp only [length_append,length_cons,length_reverse]
    omega
  have back : (front ++ turn.question :: turn.tools).reverse =
      turn.tools.reverse ++ turn.question :: front.reverse := by simp
  have walked := walkBack_tools turn.tools.reverse (fun later member => (turn.hidden later (by simpa using member)).1)
    turn.question turn.asks front.reverse
  rw [length_reverse] at walked
  rw [place,back,walked]

theorem follower_question (turn : Turn) (rest : List Message) :
    (turn.question :: rest).find? (fun row => !row.isToolRow) = some turn.question := by
  rw [find?_cons_of_pos (by simp [turn.asks.2])]

theorem answered_turn (turn : Turn) (after : List Turn) :
    answered (turn.tools ++ turn.reply.toList ++ history after) = turn.saysSomething := by
  have skip (rest : List Message) :
      (turn.tools ++ rest).find? (fun row => !row.isToolRow) = rest.find? fun row => !row.isToolRow := by
    rw [find?_append,find?_eq_none.mpr,Option.none_or]
    intro row member
    simp [(turn.hidden row member).1]
  rw [answered,append_assoc,skip]
  cases reply : turn.reply with
  | some row =>
    have shape := turn.answers row reply
    rw [Option.toList_some,singleton_append,find?_cons_of_pos (by simp [shape.2.1])]
    simp [Turn.saysSomething,reply,shape.1]
  | none =>
    cases after with
    | nil => simp [Turn.saysSomething,reply]
    | cons next later =>
      rw [Option.toList_none,nil_append,history_cons,Turn.rows,cons_append,follower_question]
      simp [Turn.saysSomething,reply,next.asks.1]

theorem cut_question (front : List Message) (turn : Turn) (after : List Turn) :
    cutFrom (front ++ turn.question :: (turn.tools ++ turn.reply.toList ++ history after)) front.length turn.question =
      if turn.saysSomething then .error .alreadyAnswered else .ok front.length := by
  have drop : (front ++ turn.question :: (turn.tools ++ turn.reply.toList ++ history after)).drop (front.length + 1) =
      turn.tools ++ turn.reply.toList ++ history after := by simp
  rw [cutFrom,if_neg (by simp [turn.asks.1]),if_pos turn.asks,drop,answered_turn]

theorem cut_tool (front rest : List Message) (hidden : row.isToolRow = true) :
    cutFrom (front ++ row :: rest) front.length row = .error .notABoundary := by simp [cutFrom,hidden]

theorem mem_history {turns : List Turn} (member : row ∈ history turns) :
    ∃ before turn after, turns = before ++ turn :: after ∧
      (row = turn.question ∨ row ∈ turn.tools ∨ turn.reply = some row) := by
  obtain ⟨turn,there,inside⟩ := mem_flatMap.mp member
  obtain ⟨before,after,split⟩ := append_of_mem there
  refine ⟨before,turn,after,split,?_⟩
  simpa [Turn.rows] using inside

section
variable {c : Conversation} {turns before after : List Turn} {turn : Turn} (rows : c.rows = history turns)
  (split : turns = before ++ turn :: after)
include rows split

theorem deleteTurn_reply {row : Message} (reply : turn.reply = some row) :
    deleteTurn c row.id = .ok (c.cut (history before).length) := by
  have place : c.rows = (history before ++ turn.question :: turn.tools) ++ row :: history after := by
    rw [rows,split]; simp [Turn.rows,reply]
  rw [deleteTurn_at place,cut_reply (history before) turn reply]
  rfl

theorem deleteTurn_question :
    deleteTurn c turn.question.id =
      if turn.saysSomething then .error .alreadyAnswered else .ok (c.cut (history before).length) := by
  have place : c.rows = history before ++ turn.question :: (turn.tools ++ turn.reply.toList ++ history after) := by
    rw [rows,split]; simp [Turn.rows]
  rw [deleteTurn_at place,cut_question (history before) turn after]
  cases turn.saysSomething <;> rfl

theorem deleteTurn_tool {row : Message} (tool : row ∈ turn.tools) : deleteTurn c row.id = .error .notABoundary := by
  have member : row ∈ c.rows := by
    rw [rows,split]; simp [Turn.rows,tool]
  obtain ⟨front,rest,place⟩ := append_of_mem member
  rw [deleteTurn_at place,cut_tool front rest (turn.hidden row tool).1]
  rfl

theorem cut_history : (c.cut (history before).length).rows = history before := by
  rw [cut_rows,rows,split,history_append,take_left]

end

theorem deleteTurn_missing {c : Conversation} {id : Nat} (missing : ∀ row ∈ c.rows, row.id ≠ id) :
    deleteTurn c id = .error .notFound := by grind only [findIdx?_eq_none_iff,deleteTurn]

/-- On a history of whole turns a delete is accepted exactly at the visible replies and at the questions without a
    reply that has a text, and leaves exactly the turns before the anchor's turn. -/
theorem deleteTurn_iff {c d : Conversation} {turns : List Turn} (rows : c.rows = history turns) (id : Nat) :
    deleteTurn c id = .ok d ↔
      ∃ before turn after, turns = before ++ turn :: after ∧ turn.Anchors id ∧ d.rows = history before := by
  grind only [mem_history,deleteTurn_question,cut_history,deleteTurn_tool,deleteTurn_reply,
    deleteTurn_missing,Conversation.ext,Turn.Anchors]

/-! ## Changing rows in their places -/

structure KeepsShape (change : Message → Message) : Prop where
  id : ∀ m, (change m).id = m.id
  role : ∀ m, (change m).role = m.role
  content : ∀ m, (change m).content = m.content
  pending : ∀ m, (change m).pending = true → m.pending = true

section
variable {change : Message → Message} (keeps : KeepsShape change)
include keeps

theorem KeepsShape.tool (m : Message) : (change m).isToolRow = m.isToolRow := by
  simp [Message.isToolRow,keeps.content m]

theorem KeepsShape.settled {m : Message} (settled : m.pending = false) : (change m).pending = false := by
  cases known : (change m).pending with
  | false => rfl
  | true => rw [keeps.pending m known] at settled; cases settled

end

def Turn.revise (turn : Turn) (change : Message → Message) (keeps : KeepsShape change) : Turn where
  question := change turn.question
  tools := turn.tools.map change
  reply := turn.reply.map change
  asks := ⟨(keeps.role _).trans turn.asks.1,(keeps.tool _).trans turn.asks.2⟩
  hidden := by
    intro row member
    obtain ⟨old,there,rfl⟩ := mem_map.mp member
    exact ⟨(keeps.tool old).trans (turn.hidden old there).1,keeps.settled (turn.hidden old there).2⟩
  pairs := by
    rw [flatMap_map]
    simpa only [keeps.content] using turn.pairs
  answers := by
    intro row reply
    obtain ⟨old,there,rfl⟩ := Option.map_eq_some_iff.mp reply
    obtain ⟨role,tool,settled,asked⟩ := turn.answers old there
    exact ⟨(keeps.role old).trans role,(keeps.tool old).trans tool,keeps.settled settled,keeps.settled asked⟩
  whole := by
    intro none
    rw [turn.whole (Option.map_eq_none_iff.mp none)]; rfl

variable {change : Message → Message} {c d : Conversation} {row question : Message} {turns : List Turn}
  {owners : List (Nat × Nat)} {rows : List Message} {turnId : Int} {place : Nat}

theorem history_revise (turns : List Turn) (keeps : KeepsShape change) :
    (history turns).map change = history (turns.map fun turn => turn.revise change keeps) := by
  induction turns with
  | nil => rfl
  | cons turn rest tail =>
    rw [history_cons,map_append,tail,map_cons]
    simp [Turn.rows,Turn.revise,Option.toList_map]

theorem keeps_clearPending (message : Option Nat) :
    KeepsShape fun m => if message.all fun id => m.id = id then { m with pending := false } else m := by
  constructor
  all_goals grind only

theorem keeps_supersede (keep : Nat) (slugs : List Text) :
    KeepsShape fun m => if m.id = keep then m else m.withoutCards slugs := by
  constructor
  all_goals grind only [Message.withoutCards]

theorem keeps_addEvent (messageId : Nat) (event : Fields) :
    KeepsShape fun m => if m.id = messageId then { m with events := m.events ++ [event] } else m := by
  constructor
  all_goals grind only

/-! ## Turns as they are saved -/

structure Question where
  id : Nat
  content : Content
  createdAt : Int
  pending : Bool
  plain : content.isToolRow = false

structure Answer extends AssistantTurn where
  toolsOnly : ∀ row ∈ toolRows, row.content.isToolRow = true
  pairs : paired [] (toolRows.flatMap fun row => blocksOf row.content) = true

inductive Action where
  | ask (question : Question)
  | answer (answer : Answer)
  | delete (anchor : Nat)
  | recover (turnId : Int) (found : Recovered)

/-- A conversation, the question of the turn in progress, and the question each saved row belongs to. -/
structure Talk where
  conversation : Conversation
  asking : Option Nat
  owners : List (Nat × Nat)

def Question.draft (question : Question) : Draft :=
  { id := question.id, role := .user, content := question.content, createdAt := question.createdAt, harness := none,
    pending := question.pending, events := [] }

def questionAt (c : Conversation) (turnId : Int) : Option Nat :=
  ((pythonIndex c.rows.length turnId).bind fun place => c.rows[place]?).map fun row => row.id

def newOwners (c : Conversation) (ids : List Nat) (question : Nat) : List (Nat × Nat) :=
  (ids.filter fun id => c.rows.all fun row => row.id ≠ id).map fun id => (id,question)

def step (talk : Talk) : Action → Talk
  | .ask question =>
    match talk.conversation.saveUserMessage question.id question.content question.createdAt question.pending with
    | some saved => { talk with conversation := saved, asking := some question.id }
    | none => talk
  | .answer answer =>
    match talk.asking with
    | none => talk
    | some question =>
      match (talk.conversation.clearPending (some question)).saveAssistantTurn answer.toAssistantTurn with
      | some saved =>
        { conversation := saved, asking := none,
          owners := newOwners talk.conversation (answer.drafts.map Draft.id) question ++ talk.owners }
      | none => talk
  | .delete anchor =>
    match deleteTurn talk.conversation anchor with
    | .ok kept => { talk with conversation := kept }
    | .error _ => talk
  | .recover turnId found =>
    match recoverInterruptedTurn talk.conversation turnId found with
    | some (_,saved) =>
      { talk with
        conversation := saved,
        owners := (questionAt talk.conversation turnId).toList.flatMap (newOwners talk.conversation [found.replyId]) ++
          talk.owners }
    | none => talk

variable {talk : Talk}

def start : Talk := ⟨.empty,none,[]⟩

def unanswered (c : Conversation) (question : Nat) : Bool :=
  c.rows.getLast?.any fun row => row.id = question && row.role = .user && !row.isToolRow

def InPlace (talk : Talk) : Action → Prop
  | .answer _ => ∀ question ∈ talk.asking, unanswered talk.conversation question = true
  | _ => True

instance (talk : Talk) (action : Action) : Decidable (InPlace talk action) := by
  cases action <;> unfold InPlace <;> infer_instance

def Turn.Own (owners : List (Nat × Nat)) (turn : Turn) : Prop :=
  ∀ row ∈ turn.tools ++ turn.reply.toList, owners.lookup row.id = some turn.question.id

def Whole (talk : Talk) : Prop :=
  ∃ turns, talk.conversation.rows = history turns ∧ ∀ turn ∈ turns, turn.Own talk.owners

/-! ## One call -/

theorem lookup_old (there : row ∈ c.rows) (ids : List Nat) (question : Nat)
    (owners : List (Nat × Nat)) : (newOwners c ids question ++ owners).lookup row.id = owners.lookup row.id := by
  have absent : (newOwners c ids question).lookup row.id = none := by
    rw [lookup_eq_none_iff]
    intro pair member
    obtain ⟨id,kept,rfl⟩ := mem_map.mp member
    have fresh := (mem_filter.mp kept).2
    simp only [all_eq_true] at fresh
    simpa using fresh row there
  rw [lookup_append,absent,Option.none_or]

theorem lookup_new {ids : List Nat} {id : Nat} (member : id ∈ ids)
    (fresh : ∀ row ∈ c.rows, row.id ≠ id) (question : Nat) (owners : List (Nat × Nat)) :
    (newOwners c ids question ++ owners).lookup id = some question := by
  have kept : id ∈ ids.filter fun id => c.rows.all fun row => row.id ≠ id := by
    refine mem_filter.mpr ⟨member,?_⟩
    simpa using fresh
  have found : (newOwners c ids question).lookup id = some question := by
    unfold newOwners
    generalize ids.filter (fun id => c.rows.all fun row => row.id ≠ id) = new at kept
    induction new <;> grind
  rw [lookup_append,found,Option.some_or]

theorem whole_revise (own : ∀ turn ∈ turns, turn.Own owners) (keeps : KeepsShape change) (same : rows = history turns) :
    ∃ turns', rows.map change = history turns' ∧ ∀ turn ∈ turns', turn.Own owners := by
  refine ⟨turns.map fun turn => turn.revise change keeps,by rw [same,history_revise],?_⟩
  intro turn member
  obtain ⟨old,there,rfl⟩ := mem_map.mp member
  intro row inside
  obtain ⟨before,inOld,rfl⟩ : ∃ before ∈ old.tools ++ old.reply.toList, change before = row := by
    simpa [Turn.revise,Option.toList_map,← map_append] using inside
  have owned := own old there before inOld
  rw [keeps.id,owned]
  exact congrArg some (keeps.id old.question).symm

theorem saveAssistantTurn_rows {turn : AssistantTurn} (saved : c.saveAssistantTurn turn = some d) :
    turn.isEmpty = true ∧ d = c ∨
      c.Takes turn.drafts ∧ ∃ change, KeepsShape change ∧ (∀ m, (change m).pending = m.pending) ∧
        d.rows = (c.rows ++ numbered c.nextSeq turn.drafts).map change := by
  unfold Conversation.saveAssistantTurn at saved
  split at saved
  · rename_i empty
    cases saved; exact .inl ⟨empty,rfl⟩
  · obtain ⟨middle,taken,rfl⟩ := Option.map_eq_some_iff.mp saved
    obtain ⟨takes,rows⟩ := append_rows taken
    refine .inr ⟨takes,?_⟩
    rw [← rows]
    dsimp only
    split
    · exact ⟨id,⟨fun _ => rfl,fun _ => rfl,fun _ => rfl,fun _ => id⟩,fun _ => rfl,by simp⟩
    · exact ⟨_,keeps_supersede _ _,fun m => by split <;> rfl,rfl⟩

def answeredTurn (question : Message) (asks : question.role = .user ∧ question.isToolRow = false)
    (settled : question.pending = false) (answer : Answer) (base : Nat) : Turn where
  question := question
  tools := numbered base (answer.toolRows.map (ToolRow.draft answer.toAssistantTurn))
  reply := some ⟨answer.reply,base + answer.toolRows.length⟩
  asks := asks
  hidden := by
    intro row member
    have draft := mem_map_of_mem (f := Message.toDraft) member
    rw [numbered_draft] at draft
    obtain ⟨tool,there,same⟩ := mem_map.mp draft
    constructor
    · have content : row.content = tool.content := congrArg Draft.content same.symm
      rw [Message.isToolRow,content]; exact answer.toolsOnly tool there
    · exact congrArg Draft.pending same.symm
  pairs := by
    have contents : (numbered base (answer.toolRows.map (ToolRow.draft answer.toAssistantTurn))).flatMap
        (fun row => blocksOf row.content) = answer.toolRows.flatMap fun row => blocksOf row.content := by
      have drafts := numbered_draft base (answer.toolRows.map (ToolRow.draft answer.toAssistantTurn))
      have moved := congrArg (List.flatMap fun draft => blocksOf draft.content) drafts
      rw [flatMap_map,flatMap_map] at moved
      exact moved
    rw [contents]; exact answer.pairs
  answers := by
    intro row reply
    cases reply; exact ⟨rfl,rfl,rfl,settled⟩
  whole := nofun

theorem answeredTurn_after (question : Message) (asks : question.role = .user ∧ question.isToolRow = false)
    (settled : question.pending = false) (answer : Answer) (base : Nat) :
    (answeredTurn question asks settled answer base).tools ++
      (answeredTurn question asks settled answer base).reply.toList = numbered base answer.drafts := by
  simp [answeredTurn,AssistantTurn.drafts,numbered_append,numbered]

def askedTurn (question : Message) (asks : question.role = .user ∧ question.isToolRow = false) : Turn :=
  ⟨question,[],none,asks,nofun,rfl,nofun,fun _ => rfl⟩

theorem own_old (there : ∀ row ∈ history turns, row ∈ c.rows) (own : ∀ turn ∈ turns, turn.Own owners)
    (ids : List Nat) (question : Nat) :
    ∀ turn ∈ turns, turn.Own (newOwners c ids question ++ owners) := by
  intro turn member row inside
  have kept : row ∈ c.rows := there row (mem_flatMap.mpr ⟨turn,member,mem_cons_of_mem _ inside⟩)
  rw [lookup_old kept]
  exact own turn member row inside

theorem whole_answered {front : List Turn}
    (asks : question.role = .user ∧ question.isToolRow = false) (settled : question.pending = false)
    (rows : c.rows = history front ++ [question]) (answer : Answer)
    (saved : c.saveAssistantTurn answer.toAssistantTurn = some d)
    (own : ∀ turn ∈ front, turn.Own owners) :
    ∃ turns, d.rows = history turns ∧
      ∀ turn ∈ turns, turn.Own (newOwners c (answer.drafts.map Draft.id) question.id ++ owners) := by
  have older := own_old (fun row member => by rw [rows]; exact mem_append_left _ member) own
    (answer.drafts.map Draft.id) question.id
  have extended (last : Turn) (owned : last.Own (newOwners c (answer.drafts.map Draft.id) question.id ++ owners)) :
      ∀ turn ∈ front ++ [last], turn.Own (newOwners c (answer.drafts.map Draft.id) question.id ++ owners) :=
    forall_mem_append.mpr ⟨older,forall_mem_singleton.mpr owned⟩
  rcases saveAssistantTurn_rows saved with ⟨_,rfl⟩ | ⟨takes,change,keeps,_,after⟩
  · exact ⟨front ++ [askedTurn question asks],by simp [rows,askedTurn,Turn.rows],extended _ nofun⟩
  · rw [after]
    refine whole_revise (extended (answeredTurn question asks settled answer c.nextSeq) ?_) keeps ?_
    · intro row inside
      rw [answeredTurn_after] at inside
      have id : row.id ∈ answer.drafts.map Draft.id := by
        rw [← numbered_ids c.nextSeq]; exact mem_map_of_mem inside
      refine lookup_new id ?_ question.id owners
      intro old there same; exact (nodup_append.mp takes.1).2.2 old.id (mem_map_of_mem there) row.id id same
    · rw [rows,history_append,history_cons,Turn.rows,answeredTurn_after]
      simp [answeredTurn]

theorem whole_ask (whole : Whole talk) (question : Question) : Whole (step talk (.ask question)) := by
  obtain ⟨turns,rows,own⟩ := whole
  simp only [step]
  cases saved : talk.conversation.saveUserMessage question.id question.content question.createdAt question.pending with
  | none => exact ⟨turns,rows,own⟩
  | some next =>
    have after := (append_rows saved).2
    refine ⟨turns ++ [askedTurn ⟨question.draft,talk.conversation.nextSeq⟩ ⟨rfl,question.plain⟩],?_,?_⟩
    · simp [after,rows,numbered,askedTurn,Turn.rows,Question.draft]
    · exact forall_mem_append.mpr ⟨own,by simp [askedTurn,Turn.Own]⟩

theorem history_last (last : (history turns).getLast? = some row) :
    ∃ front turn, turns = front ++ [turn] ∧ (turn.reply = some row ∨ turn.reply = none ∧ turn.question = row) := by
  rcases eq_nil_or_concat turns with rfl | ⟨front,turn,split⟩
  · cases last
  · rw [concat_eq_append] at split
    refine ⟨front,turn,split,?_⟩
    cases reply : turn.reply with
    | some final =>
      have rows : history turns = (history front ++ turn.question :: turn.tools) ++ [final] := by
        simp [split,Turn.rows,reply]
      rw [rows,getLast?_concat] at last
      exact .inl last
    | none =>
      have rows : history turns = history front ++ [turn.question] := by simp [split,Turn.rows,reply,turn.whole reply]
      rw [rows,getLast?_concat] at last
      exact .inr ⟨rfl,Option.some.inj last⟩

theorem last_asks (last : (history turns).getLast? = some row)
    (asks : row.role = .user ∧ row.isToolRow = false) : ∃ front, turns = front ++ [askedTurn row asks] := by
  obtain ⟨front,turn,split,reply | ⟨reply,question⟩⟩ := history_last last
  · have shape := turn.answers row reply
    rw [asks.1] at shape
    cases shape.1
  · refine ⟨front,?_⟩
    rw [split]
    obtain ⟨_,tools,_,_,_,_,_,closed⟩ := turn
    cases reply
    cases closed rfl
    cases question; rfl

theorem newOwners_revise (c : Conversation) (keeps : ∀ m, (change m).key = m.key)
    (ids : List Nat) (question : Nat) : newOwners (c.revise change keeps) ids question = newOwners c ids question := by
  grind [all_map,key_id,newOwners,revise_rows]

theorem asked_cleared (rows : c.rows = history turns) (own : ∀ turn ∈ turns, turn.Own owners)
    (last : c.rows.getLast? = some row) (asks : row.role = .user ∧ row.isToolRow = false) :
    ∃ front question, (c.clearPending (some row.id)).rows = history front ++ [question] ∧
      (question.role = .user ∧ question.isToolRow = false) ∧ question.pending = false ∧ question.id = row.id ∧
      ∀ turn ∈ front, turn.Own owners := by
  rw [rows] at last
  obtain ⟨front,rfl⟩ := last_asks last asks
  obtain ⟨front',same,kept⟩ := whole_revise (fun turn member => own turn (mem_append_left _ member))
    (keeps_clearPending (some row.id)) (rfl : history front = history front)
  refine ⟨front',{ row with pending := false },?_,asks,rfl,rfl,kept⟩
  rw [← same,Conversation.clearPending,revise_rows,rows]
  simp [askedTurn,Turn.rows]

theorem unanswered_last {question : Nat} (last : unanswered c question = true) :
    ∃ row, c.rows.getLast? = some row ∧ row.id = question ∧ row.role = .user ∧ row.isToolRow = false := by
  grind [unanswered]

theorem whole_answer (whole : Whole talk) (answer : Answer) (inPlace : InPlace talk (.answer answer)) :
    Whole (step talk (.answer answer)) := by
  obtain ⟨turns,rows,own⟩ := whole
  simp only [step]
  cases asking : talk.asking with
  | none => exact ⟨turns,rows,own⟩
  | some question =>
    simp only
    cases saved : (talk.conversation.clearPending (some question)).saveAssistantTurn answer.toAssistantTurn with
    | none => exact ⟨turns,rows,own⟩
    | some next =>
      obtain ⟨row,final,rfl,asks⟩ := unanswered_last (inPlace question (by rw [asking]; rfl))
      obtain ⟨front,asked,cleared,asks,settled,id,kept⟩ := asked_cleared rows own final asks
      have done := whole_answered asks settled cleared answer saved kept
      rw [Conversation.clearPending,newOwners_revise,id] at done
      exact done

theorem whole_delete (whole : Whole talk) (anchor : Nat) : Whole (step talk (.delete anchor)) := by
  grind only [step,deleteTurn_iff,mem_append_left,Whole]

/-! ## A recovery -/

theorem follower_nothing (none : follower rows = .nothing) :
    ∀ row ∈ rows, row.isToolRow = true ∨ row.role = .other := by
  induction rows with
  | nil => exact nofun
  | cons first rest tail =>
    unfold follower at none
    intro row member
    by_cases tool : first.isToolRow = true
    · grind only [mem_cons]
    · rw [if_neg tool] at none
      cases role : first.role <;> simp only [role,if_true,reduceCtorEq,if_false] at none
      rcases mem_cons.mp member with rfl | later
      · exact .inr role
      · exact tail none row later

theorem last_visible (last : (history turns).getLast? = some row) : row.isToolRow = false ∧ row.role ≠ .other := by
  obtain ⟨front,turn,_,reply | ⟨_,rfl⟩⟩ := history_last last
  all_goals grind only [turn.answers,turn.asks]

theorem searched_rows {length : Nat} (found : pythonIndex length turnId = some place)
    (rows : List Message) (count : rows.length = length) :
    sliceFrom (turnId + 1) rows = rows.drop (place + 1) ∨ sliceFrom (turnId + 1) rows = rows := by
  unfold pythonIndex at found
  unfold sliceFrom
  by_cases forward : 0 ≤ turnId
  · grind only
  · rw [if_neg forward] at found
    split at found
    · cases found
      by_cases last : turnId = -1
      · right
        simp [last]
      · left
        rw [if_neg (by omega)]
        congr 1
        omega
    · cases found

theorem alone_after (found : pythonIndex rows.length turnId = some place) (there : rows[place]? = some question)
    (asks : question.role = .user ∧ question.isToolRow = false)
    (alone : follower (sliceFrom (turnId + 1) rows) = .nothing) :
    ∀ row ∈ rows.drop (place + 1), row.isToolRow = true ∨ row.role = .other := by
  grind only [searched_rows,follower_nothing,mem_of_getElem?]

theorem recovers_last (rows : c.rows = history turns) (there : c.rows[place]? = some question)
    (hidden : ∀ row ∈ c.rows.drop (place + 1), row.isToolRow = true ∨ row.role = .other) :
    c.rows.getLast? = some question := by
  obtain ⟨bound,same⟩ := List.getElem?_eq_some_iff.mp there
  have split : c.rows = c.rows.take place ++ question :: c.rows.drop (place + 1) := by
    rw [← same,← drop_eq_getElem_cons bound,take_append_drop]
  rcases eq_nil_or_concat (c.rows.drop (place + 1)) with none | ⟨early,final,ends⟩
  · rw [split,none,getLast?_concat]
  · rw [concat_eq_append] at ends
    have last : (history turns).getLast? = some final := by
      rw [← rows,split,ends,← cons_append,← append_assoc,getLast?_concat]
    have shown := last_visible last
    rcases hidden final (by rw [ends]; simp) with tool | other
    · rw [shown.1] at tool; cases tool
    · exact absurd other shown.2

theorem recover_cases {found : Recovered} {done : Bool}
    (recovered : recoverInterruptedTurn c turnId found = some (done,d)) :
    (done = false ∧ d = c) ∨
      ∃ place question, pythonIndex c.rows.length turnId = some place ∧ c.rows[place]? = some question ∧
        (question.role = .user ∧ question.isToolRow = false) ∧
        ((∃ reply, follower (sliceFrom (turnId + 1) c.rows) = .reply reply ∧
            reply.events.any isTerminalEvent = false ∧
            d = (addEvent c reply.id found.terminalEvent).clearPending (some question.id)) ∨
          (follower (sliceFrom (turnId + 1) c.rows) = .nothing ∧
            (c.clearPending (some question.id)).saveAssistantTurn found.turn = some d)) := by
  unfold recoverInterruptedTurn at recovered
  split at recovered
  · cases recovered; exact .inl ⟨rfl,rfl⟩
  · cases located : pythonIndex c.rows.length turnId with
    | none => simp [located] at recovered
    | some place =>
      cases there : c.rows[place]? with
      | none => simp [located,there] at recovered
      | some question =>
        simp only [located,there,Option.bind_some] at recovered
        split at recovered
        · cases recovered; exact .inl ⟨rfl,rfl⟩
        · rename_i visible
          have asks : question.role = .user ∧ question.isToolRow = false := by simpa using visible
          split at recovered
          · cases recovered; exact .inl ⟨rfl,rfl⟩
          · rename_i reply follows
            split at recovered
            · cases recovered; exact .inl ⟨rfl,rfl⟩
            · rename_i unfinished
              cases recovered
              exact .inr ⟨place,question,rfl,there,asks,.inl ⟨reply,follows,by simpa using unfinished,rfl⟩⟩
          · rename_i alone
            obtain ⟨next,saved,equal⟩ := Option.map_eq_some_iff.mp recovered
            cases equal; exact .inr ⟨place,question,rfl,there,asks,.inr ⟨alone,saved⟩⟩

def Recovered.answer (found : Recovered) : Answer := { found.turn with toolsOnly := nofun, pairs := rfl }

theorem recovered_whole (rows : c.rows = history turns) (own : ∀ turn ∈ turns, turn.Own owners) {found : Recovered}
    {done : Bool} (recovered : recoverInterruptedTurn c turnId found = some (done,d)) :
    ∃ turns', d.rows = history turns' ∧ ∀ turn ∈ turns',
      turn.Own ((questionAt c turnId).toList.flatMap (newOwners c [found.replyId]) ++ owners) := by
  have older : ∀ turn ∈ turns,
      turn.Own ((questionAt c turnId).toList.flatMap (newOwners c [found.replyId]) ++ owners) := by
    cases questionAt c turnId with
    | none => exact own
    | some question =>
      rw [Option.toList_some,flatMap_singleton]
      exact own_old (fun row member => by rw [rows]; exact member) own _ _
  rcases recover_cases recovered with ⟨_,rfl⟩ | ⟨place,question,located,there,asks,marked | ⟨alone,saved⟩⟩
  · exact ⟨turns,rows,older⟩
  · obtain ⟨reply,_,_,rfl⟩ := marked
    obtain ⟨noted,same,kept⟩ := whole_revise older (keeps_addEvent reply.id found.terminalEvent) rows
    exact whole_revise kept (keeps_clearPending (some question.id)) same
  · have asked : questionAt c turnId = some question.id := by simp [questionAt,located,there]
    obtain ⟨front,row,cleared,shape,settled,id,kept⟩ :=
      asked_cleared rows own (recovers_last rows there (alone_after located there asks alone)) asks
    have answered := whole_answered shape settled cleared found.answer saved kept
    rw [Conversation.clearPending,newOwners_revise,id] at answered
    rw [asked,Option.toList_some,flatMap_singleton]
    exact answered

theorem whole_recover (whole : Whole talk) (turnId : Int) (found : Recovered) :
    Whole (step talk (.recover turnId found)) := by
  obtain ⟨turns,rows,own⟩ := whole
  simp only [step]
  cases recovered : recoverInterruptedTurn talk.conversation turnId found with
  | none => exact ⟨turns,rows,own⟩
  | some result => exact recovered_whole rows own recovered

theorem whole_step (talk : Talk) (action : Action) (whole : Whole talk) (inPlace : InPlace talk action) :
    Whole (step talk action) := by
  cases action <;> grind only [whole_ask,whole_answer,whole_delete,whole_recover]

/-! ## Whole runs -/

theorem replayed_turns (turns : List Turn) :
    (history turns).filter (fun row => !row.pending) = history (turns.filter fun turn => !turn.question.pending) := by
  induction turns with
  | nil => rfl
  | cons turn rest tail =>
    rw [history_cons,filter_append,tail,filter_cons]
    cases pending : turn.question.pending with
    | true =>
      have alone : turn.reply = none := by
        cases reply : turn.reply with
        | none => rfl
        | some row =>
          have settled := (turn.answers row reply).2.2.2
          rw [pending] at settled; cases settled
      simp [Turn.rows,alone,turn.whole alone,pending]
    | false =>
      have all : turn.rows.filter (fun row => !row.pending) = turn.rows := by
        rw [filter_eq_self]
        intro row member
        rcases mem_cons.mp member with rfl | inside
        · simp [pending]
        · rcases mem_append.mp inside with tool | reply
          · simp [(turn.hidden row tool).2]
          · simp [(turn.answers row (by simpa using reply)).2.2.1]
      simp [all]

/-- If each answer is saved while its question is the last row, the history is made of whole turns; a delete is
    accepted exactly at visible replies and at questions without an answer, leaves the turns before the anchor's, and
    changes nothing if refused. -/
theorem history_is_whole_turns (actions : List Action) (inPlace : Permitted step InPlace start actions) :
    ∃ turns, (reach step start actions).conversation.rows = history turns ∧
      (reach step start actions).conversation.getOrderedMessages false =
        history (turns.filter fun turn => !turn.question.pending) ∧
      (∀ turn ∈ turns, turn.Own (reach step start actions).owners) ∧
      (∀ id kept, deleteTurn (reach step start actions).conversation id = .ok kept ↔
        ∃ before turn after, turns = before ++ turn :: after ∧ turn.Anchors id ∧ kept.rows = history before) ∧
      ∀ id error, deleteTurn (reach step start actions).conversation id = .error error →
        step (reach step start actions) (.delete id) = reach step start actions := by
  have initial : Whole start := by
    refine ⟨[],rfl,?_⟩
    intro turn never; cases never
  obtain ⟨turns,rows,own⟩ := invariant_reach whole_step initial inPlace
  refine ⟨turns,rows,?_,own,?_,?_⟩
  · rw [Conversation.getOrderedMessages,if_neg Bool.false_ne_true,rows,replayed_turns]
  · intro id kept; exact deleteTurn_iff rows id
  · intro id error refused
    simp only [step,refused]

/-! ## Answers out of place -/

theorem replies_le_questions (turns : List Turn) :
    (history turns).countP (fun row => !row.isToolRow && row.role = .assistant) ≤
      (history turns).countP fun row => !row.isToolRow && row.role = .user := by
  induction turns with
  | nil => exact Nat.le_refl 0
  | cons turn rest tail =>
    have tools (role : Role) : turn.tools.countP (fun row => !row.isToolRow && row.role = role) = 0 := by
      rw [countP_eq_zero]
      intro row member
      simp [(turn.hidden row member).1]
    have one : turn.reply.toList.countP (fun row => !row.isToolRow && row.role = .assistant) ≤ 1 :=
      Nat.le_trans countP_le_length (by cases turn.reply <;> simp)
    simp only [history_cons,Turn.rows,countP_append,countP_cons,tools,turn.asks]
    simp only [Bool.not_false,Bool.true_and,decide_true,if_true,reduceCtorEq,decide_false,if_false]
    omega

def sampleQuestion : Question := ⟨1,.text "Which plan?".toList,0,true,rfl⟩

def sampleLost : Recovered :=
  ⟨"lost".toList,.cons "type".toList (.str "response.failed".toList) .nil,2,none,0⟩

def sampleAnswer : Answer where
  id := 5
  text := "This one.".toList
  events := []
  harness := none
  toolRows := [⟨3,.assistant,.blocks [.toolUse ['a'] .null]⟩,⟨4,.user,.blocks [.toolResult ['a'] .null]⟩]
  now := 0
  toolsOnly := by decide
  pairs := by decide

def sampleRun : List Action :=
  [.ask sampleQuestion,.answer sampleAnswer,.ask ⟨6,.text "Why?".toList,1,true,rfl⟩,.recover 4 sampleLost,.delete 2]

theorem sampleRun_whole :
    Permitted step InPlace start sampleRun ∧
      ∃ turns, (reach step start sampleRun).conversation.rows = history turns := by
  have inPlace : Permitted step InPlace start sampleRun := by decide +kernel
  obtain ⟨turns,rows,_⟩ := history_is_whole_turns sampleRun inPlace
  exact ⟨inPlace,turns,rows⟩

/-- An answer that is saved after its question was recovered is a second reply to it, and
    one that is saved after its question was deleted is a reply to none. -/
theorem answers_out_of_place :
    (¬ ∃ turns, history turns =
      (reach step start [.ask sampleQuestion,.recover 0 sampleLost,.answer sampleAnswer]).conversation.rows) ∧
    ¬ ∃ turns, history turns =
      (reach step start [.ask sampleQuestion,.delete 1,.answer sampleAnswer]).conversation.rows := by
  constructor
  all_goals
    rintro ⟨turns,rows⟩
    have counts := replies_le_questions turns
    rw [rows] at counts
    revert counts
    decide +kernel

end Cowork.WholeTurns
