import Cowork.AnswerText
import Cowork.WholeTurns

/-!
Boot recovery of turns. `seal_orphan_turns_in_history` reads the buffers that crashed
turns left and gives each to `recover_interrupted_turn`. Any number of runs, each of
which may die, is one sequence of attempts. A buffer names its turn by number alone
(`stale_buffer_answers_another_question`).
-/
namespace Cowork.TurnRecovery
open JsonText List
open AnswerText (joined orEmpty)
open Conversations WholeTurns

/-- A turn's buffer file as it is read back; `question` is the row that its turn had saved. -/
structure Buffer where
  conversation : Option Nat
  turnId : Option Int
  terminalReason : Option Text
  events : List Fields
  question : Nat

/-- `accumulate_answer_text`, of an event as it is read back. -/
def accumulate (collected : List Value) (event : Fields) : List Value :=
  if eventType event = some (.str "response.output_text.delta".toList) then
    collected ++ [orEmpty (event.get "delta".toList)]
  else if eventType event = some (.str "response.answer_reset".toList) then []
  else if eventType event = some (.str "response.answer_restore".toList) then
    orEmpty (event.get "text".toList) :: collected
  else collected

def Buffer.text (buffer : Buffer) : Option Text := joined (buffer.events.foldl accumulate [])

/-- `response_failed_payload(TURN_LOST_MESSAGE, TURN_LOST_CODE)`. -/
def turnLost : Fields :=
  .cons "type".toList (.str "response.failed".toList)
    (.cons "code".toList (.str "turn_lost".toList)
      (.cons "error".toList
        (.str ("The server stopped before this answer finished. The answer ends where it " ++
          "was cut off. Please send your question again.").toList) .nil))

def Buffer.terminalEvent (buffer : Buffer) : Fields :=
  ((buffer.events.filter isTerminalEvent).getLast?).getD turnLost

/-- The buffers recovered from: without a terminal record, or ended by a restart or a shutdown. -/
def Buffer.orphan (buffer : Buffer) : Bool :=
  match buffer.terminalReason with
  | none => true
  | some reason => decide (reason = "restart".toList) || decide (reason = "interrupted".toList)

structure Attempt where
  buffer : Buffer
  replyId : Nat
  harness : Option Text
  now : Int

def Attempt.recovered (attempt : Attempt) (text : Text) : Recovered :=
  ⟨text,attempt.buffer.terminalEvent,attempt.replyId,attempt.harness,attempt.now⟩

abbrev Store := Nat → Option Conversation

/-- What an attempt makes of its conversation; none if the buffer is passed by or raises, which is rolled back. -/
def Attempt.outcome (attempt : Attempt) (c : Conversation) : Option (Bool × Conversation) :=
  if attempt.buffer.orphan then
    attempt.buffer.turnId.bind fun turnId =>
      attempt.buffer.text.bind fun text => recoverInterruptedTurn c turnId (attempt.recovered text)
  else none

def sealTurn (store : Store) (attempt : Attempt) : Store :=
  match attempt.buffer.conversation with
  | none => store
  | some id => ((store id).bind attempt.outcome).elim store fun result => Function.update store id (some result.2)

/-- `seal_orphan_turns_in_history`, run any number of times over any buffers: the attempts made, one after another. -/
def sealOrphanTurns (store : Store) (attempts : List Attempt) : Store := attempts.foldl sealTurn store

/-- What can happen to a row: its question's flag is cleared, or the end of a reply without a mark is marked. -/
inductive Marked (row : Message) : Message → Prop
  | same : Marked row row
  | asked (role : row.role = .user) : Marked row { row with pending := false }
  | ended (event : Fields) (role : row.role = .assistant) (unmarked : row.events.any isTerminalEvent = false)
      (terminal : isTerminalEvent event = true) : Marked row { row with events := row.events ++ [event] }

theorem Marked.durable {before after : Message} (marked : Marked before after) (reply : before.role = .assistant)
    (terminal : before.events.any isTerminalEvent = true) : after = before := by grind only [cases Marked]

theorem Marked.trans {first second third : Message} (early : Marked first second) (late : Marked second third) :
    Marked first third := by grind [cases Marked]

theorem terminalEvent_terminal (buffer : Buffer) : isTerminalEvent buffer.terminalEvent = true := by
  unfold Buffer.terminalEvent
  cases last : (buffer.events.filter isTerminalEvent).getLast? with
  | none => decide +kernel
  | some event => exact (mem_filter.mp (mem_of_getLast? last)).2

theorem terminal_no_card {event : Fields} (terminal : isTerminalEvent event = true) :
    skillCreatedSlug event = none := by
  have type : eventType event ≠ some (.str "response.skill_created".toList) := by
    simp only [isTerminalEvent,Bool.or_eq_true,decide_eq_true_eq] at terminal
    grind only
  rw [skillCreatedSlug,if_neg type]

variable {c d : Conversation} {reply question : Message} {rows : List Message} {used : List Attempt} {id : Nat}

theorem marked_rows (replied : reply ∈ c.rows) (answers : reply.role = .assistant)
    (unmarked : reply.events.any isTerminalEvent = false) (asked : question ∈ c.rows) (asks : question.role = .user)
    {event : Fields} (terminal : isTerminalEvent event = true) :
    ∃ change, ((addEvent c reply.id event).clearPending (some question.id)).rows = c.rows.map change ∧
      ∀ row ∈ c.rows, Marked row (change row) := by
  refine ⟨_,map_map,?_⟩
  intro row member
  have unique {other : Message} (there : other ∈ c.rows) (same : row.id = other.id) : row = other :=
    inj_on_of_nodup_map c.unique member there same
  simp only [Function.comp_apply,Option.all_some,decide_eq_true_eq]
  by_cases ends : row.id = reply.id
  · cases unique replied ends
    have apart : reply.id ≠ question.id := by
      intro same
      cases unique asked same
      rw [asks] at answers; cases answers
    rw [if_pos rfl,if_neg apart]; exact .ended event answers unmarked terminal
  · rw [if_neg ends]
    by_cases asking : row.id = question.id
    · cases unique asked asking
      rw [if_pos rfl]; exact .asked asks
    · rw [if_neg asking]; exact .same

theorem cleared_rows (asked : question ∈ c.rows) (asks : question.role = .user) :
    ∃ change, (c.clearPending (some question.id)).rows = c.rows.map change ∧
      ∀ row ∈ c.rows, Marked row (change row) := by
  refine ⟨_,rfl,?_⟩
  intro row member
  simp only [Option.all_some,decide_eq_true_eq]
  split
  · rename_i same
    cases inj_on_of_nodup_map c.unique member asked same
    exact .asked asks
  · exact .same

theorem saved_reply {found : Recovered} (terminal : isTerminalEvent found.terminalEvent = true)
    (saved : c.saveAssistantTurn found.turn = some d) : d.rows = c.rows ++ [⟨found.turn.reply,c.nextSeq⟩] := by
  have full : found.turn.isEmpty = false := by simp [AssistantTurn.isEmpty,Recovered.turn]
  have cards : found.turn.events.filterMap skillCreatedSlug = [] := by simp [Recovered.turn,terminal_no_card terminal]
  rw [Conversation.saveAssistantTurn,full] at saved
  simp only [cards,isEmpty_nil,if_true,Option.map_id'] at saved
  rw [(append_rows saved).2]
  rfl

theorem follower_reply (follows : follower rows = .reply reply) : reply ∈ rows ∧ reply.role = .assistant := by
  induction rows <;> grind only [follower,mem_cons_of_mem,mem_cons_self]

/-- A reply with the text of a buffer's turn, to the question at the buffer's number,
    which only hidden rows followed. -/
structure Answers (used : List Attempt) (id : Nat) (c : Conversation) (reply : Message) (attempt : Attempt)
    (question : Message) : Prop where
  used : attempt ∈ used
  buffer : attempt.buffer.conversation = some id ∧ attempt.buffer.orphan = true
  place : ∃ turnId place, attempt.buffer.turnId = some turnId ∧ pythonIndex c.rows.length turnId = some place ∧
    c.rows[place]? = some question ∧
    ∀ row ∈ c.rows.drop (place + 1), row.isToolRow = true ∨ row.role = .other
  asks : question.role = .user ∧ question.isToolRow = false
  text : ∃ text, attempt.buffer.text = some text ∧ reply.content = .text text
  reply : reply.role = .assistant ∧ reply.events = [attempt.buffer.terminalEvent]

def Sealed (used : List Attempt) (id : Nat) (c d : Conversation) : Prop :=
  ∃ change added, d.rows = c.rows.map change ++ added ∧ (∀ row ∈ c.rows, Marked row (change row)) ∧
    (added = [] ∨ ∃ reply attempt question, added = [reply] ∧ Answers used id c reply attempt question)

theorem Answers.more {attempt : Attempt} (answers : Answers used id c reply attempt question) (next : Attempt) :
    Answers (used ++ [next]) id c reply attempt question :=
  { answers with used := mem_append_left _ answers.used }

theorem Sealed.more (before : Sealed used id c d) (next : Attempt) : Sealed (used ++ [next]) id c d := by
  obtain ⟨change,added,rows,marked,new⟩ := before
  refine ⟨change,added,rows,marked,?_⟩
  rcases new with none | ⟨reply,attempt,question,one,answers⟩
  · exact .inl none
  · exact .inr ⟨reply,attempt,question,one,answers.more next⟩

theorem Sealed.mark (before : Sealed used id c d) {change : Message → Message} (same : rows = d.rows.map change)
    (marked : ∀ row ∈ d.rows, Marked row (change row)) : ∃ change' added, rows = c.rows.map change' ++ added ∧
    (∀ row ∈ c.rows, Marked row (change' row)) ∧ (added = [] ∧ rows.length = c.rows.length ∨ ∃ reply attempt question,
    added = [reply] ∧ Answers used id c reply attempt question) := by
  obtain ⟨earlier,added,old,first,new⟩ := before
  have inside {row : Message} (member : row ∈ c.rows) : earlier row ∈ d.rows := by
    rw [old]; exact mem_append_left _ (mem_map_of_mem member)
  refine ⟨change ∘ earlier,added.map change,?_,?_,?_⟩
  · rw [same,old,map_append,map_map]
  · intro row member; exact (first row member).trans (marked _ (inside member))
  · rcases new with rfl | ⟨reply,attempt,question,rfl,answers⟩
    · left
      simp [same,old]
    · -- the new reply has its terminal event
      have there : reply ∈ d.rows := by rw [old]; simp
      have durable := (marked reply there).durable answers.reply.1
        (by simp [answers.reply.2,terminalEvent_terminal])
      exact .inr ⟨reply,attempt,question,by simp [durable],answers⟩

def shape (row : Message) : Role × Content := (row.role,row.content)

theorem marked_shape {change : Message → Message} (marked : ∀ row ∈ rows, Marked row (change row)) :
    (rows.map change).map shape = rows.map shape := by grind only [map_map,map_congr_left,shape,cases Marked]

theorem alone_alike {others : List Message} (same : rows.map shape = others.map shape) {place : Nat}
    (there : others[place]? = some question) (asks : question.role = .user ∧ question.isToolRow = false)
    (hidden : ∀ row ∈ others.drop (place + 1), row.isToolRow = true ∨ row.role = .other) :
    ∃ asked, rows[place]? = some asked ∧ (asked.role = .user ∧ asked.isToolRow = false) ∧
      ∀ row ∈ rows.drop (place + 1), row.isToolRow = true ∨ row.role = .other := by
  have alike {row other : Message} (equal : shape row = shape other) :
      row.role = other.role ∧ row.isToolRow = other.isToolRow :=
    ⟨congrArg Prod.fst equal,congrArg (fun pair : Role × Content => pair.2.isToolRow) equal⟩
  have found : (rows.map shape)[place]? = some (shape question) := by
    rw [same,List.getElem?_map,there]; rfl
  rw [List.getElem?_map] at found
  obtain ⟨asked,here,equal⟩ := Option.map_eq_some_iff.mp found
  refine ⟨asked,here,?_,?_⟩
  · rw [(alike equal).1,(alike equal).2]; exact asks
  · intro row member
    have inside : shape row ∈ (others.map shape).drop (place + 1) := by
      rw [← same,← map_drop]; exact mem_map_of_mem member
    rw [← map_drop] at inside
    grind only [mem_map]

theorem last_not_hidden (last : rows.getLast? = some reply)
    (answers : reply.role = .assistant ∧ reply.isToolRow = false) {place : Nat} (there : rows[place]? = some question)
    (asks : question.role = .user) : ¬ ∀ row ∈ rows.drop (place + 1), row.isToolRow = true ∨ row.role = .other := by
  intro hidden
  obtain ⟨front,rfl⟩ : ∃ front, rows = front ++ [reply] := getLast?_eq_some_iff.mp last
  have early : place < front.length := by
    by_contra late
    obtain ⟨bound,_⟩ := List.getElem?_eq_some_iff.mp there
    have final : place = front.length := by
      simp only [length_append,length_singleton] at bound
      omega
    rw [final,List.getElem?_concat_length] at there
    cases there
    rw [asks] at answers
    cases answers.1
  have member : reply ∈ (front ++ [reply]).drop (place + 1) := by
    rw [drop_append_of_le_length (by omega)]
    simp
  rcases hidden reply member with tool | other
  · rw [answers.2] at tool; cases tool
  · rw [answers.1] at other; cases other

theorem Sealed.recover {e : Conversation} (before : Sealed used id c d) {attempt : Attempt}
    (buffer : attempt.buffer.conversation = some id ∧ attempt.buffer.orphan = true) {turnId : Int}
    (number : attempt.buffer.turnId = some turnId) {text : Text} (read : attempt.buffer.text = some text) {done : Bool}
    (recovered : recoverInterruptedTurn d turnId (attempt.recovered text) = some (done,e)) :
    Sealed (used ++ [attempt]) id c e := by
  have terminal : isTerminalEvent (attempt.recovered text).terminalEvent = true := terminalEvent_terminal _
  rcases recover_cases recovered with ⟨_,rfl⟩ | ⟨place,question,located,there,asks,ended | ⟨alone,saved⟩⟩
  · exact before.more attempt
  · obtain ⟨reply,follows,unmarked,rfl⟩ := ended
    have asked : question ∈ d.rows := mem_of_getElem? there
    have found := follower_reply follows
    have replied : reply ∈ d.rows := mem_of_mem_drop found.1
    obtain ⟨change,rows,marked⟩ := marked_rows replied found.2 unmarked asked asks.1 terminal
    obtain ⟨change',added,same,kept,new⟩ := before.mark rows marked
    grind only [Sealed.more,Sealed]
  · have hidden := alone_after located there asks alone
    have asked : question ∈ d.rows := mem_of_getElem? there
    obtain ⟨change,rows,marked⟩ := cleared_rows asked asks.1
    obtain ⟨change',added,same,kept,new⟩ := before.mark rows marked
    have shapes : ((c.rows.map change' ++ added).map shape) = d.rows.map shape := by
      rw [← same,rows,marked_shape marked]
    rcases new with ⟨rfl,count⟩ | ⟨reply,_,_,rfl,answers⟩
    · rw [append_nil,marked_shape kept] at shapes
      obtain ⟨first,here,asking,after⟩ := alone_alike shapes there asks hidden
      have length : d.rows.length = c.rows.length := by simpa using congrArg List.length shapes.symm
      rw [length] at located
      refine ⟨change',[⟨(attempt.recovered text).turn.reply,(d.clearPending (some question.id)).nextSeq⟩],?_,kept,
        .inr ⟨_,attempt,first,rfl,?_⟩⟩
      · rw [saved_reply terminal saved,same,append_nil]
      · exact
          { used := mem_append_right _ (mem_singleton.mpr rfl)
            buffer := buffer
            place := ⟨turnId,place,number,located,here,after⟩
            asks := asking
            text := ⟨text,read,rfl⟩
            reply := ⟨rfl,rfl⟩ }
    · -- a reply that an earlier attempt saved would follow the question
      grind only [answers.text,answers.reply,Message.isToolRow,Content.isToolRow,alone_alike,
        last_not_hidden,getLast?_concat]

theorem sealed_start (id : Nat) (c : Conversation) : Sealed [] id c c :=
  ⟨fun row => row,[],by simp,fun _ _ => .same,.inl rfl⟩

theorem sealTurn_sealed {store : Store} (stored : store id = some d) (before : Sealed used id c d) (attempt : Attempt) :
    ∃ e, sealTurn store attempt id = some e ∧ Sealed (used ++ [attempt]) id c e := by
  have still : ∃ e, store id = some e ∧ Sealed (used ++ [attempt]) id c e := ⟨d,stored,before.more attempt⟩
  unfold sealTurn
  cases conversation : attempt.buffer.conversation with
  | none => exact still
  | some other =>
    dsimp only
    by_cases mine : id = other
    · cases mine
      rw [stored,Option.bind_some]
      cases outcome : attempt.outcome d with
      | none => exact still
      | some result =>
        simp only [Attempt.outcome,Option.ite_none_right_eq_some,Option.bind_eq_some_iff] at outcome
        obtain ⟨orphan,turnId,number,text,read,recovered⟩ := outcome
        refine ⟨result.2,Function.update_self ..,?_⟩
        exact before.recover ⟨conversation,orphan⟩ number read recovered
    · cases (store other).bind attempt.outcome with
      | none => exact still
      | some result =>
        rw [Option.elim_some,Function.update_of_ne mine]
        exact still

theorem sealed_after {store : Store} (stored : store id = some d) (before : Sealed used id c d)
    (attempts : List Attempt) : ∃ e, sealOrphanTurns store attempts id = some e ∧ Sealed (used ++ attempts) id c e := by
  induction attempts generalizing store used d with
  | nil => exact ⟨d,stored,by simpa using before⟩
  | cons attempt rest tail =>
    obtain ⟨next,saved,sealed⟩ := sealTurn_sealed stored before attempt
    obtain ⟨last,final,whole⟩ := tail saved sealed
    exact ⟨last,final,by simpa using whole⟩

def OwnNumber (c : Conversation) (buffer : Buffer) : Prop :=
  ∀ turnId place row, buffer.turnId = some turnId → pythonIndex c.rows.length turnId = some place →
    c.rows[place]? = some row → row.id = buffer.question

/-- However often recovery runs and dies: ended replies stay, other rows lose a pending flag or gain one terminal
    event, and a conversation gains at most one reply, with a buffer's text, after the question at its number. -/
theorem recovery_marks_and_answers_once (store : Store) (attempts : List Attempt) (id : Nat) (c : Conversation)
    (stored : store id = some c) :
    ∃ d change added, sealOrphanTurns store attempts id = some d ∧ d.rows = c.rows.map change ++ added ∧
      (∀ row ∈ c.rows, Marked row (change row)) ∧
      (∀ row ∈ c.rows, row.role = .assistant → row.events.any isTerminalEvent = true → change row = row) ∧
      added.length ≤ 1 ∧
      ∀ reply ∈ added, ∃ attempt question, Answers attempts id c reply attempt question ∧
        (OwnNumber c attempt.buffer → question.id = attempt.buffer.question) := by
  obtain ⟨d,final,change,added,rows,marked,new⟩ := sealed_after stored (sealed_start id c) attempts
  refine ⟨d,change,added,final,rows,marked,?_,?_,?_⟩
  · intro row member reply terminal; exact (marked row member).durable reply terminal
  · rcases new with rfl | ⟨_,_,_,rfl,_⟩
    · exact Nat.zero_le 1
    · exact Nat.le_refl 1
  · intro reply member
    rcases new with rfl | ⟨only,attempt,question,rfl,answers⟩
    · cases member
    · cases mem_singleton.mp member
      refine ⟨attempt,question,answers,?_⟩
      intro own
      obtain ⟨turnId,place,number,located,there,_⟩ := answers.place
      exact own turnId place question number located there

def askedAgain : Conversation :=
  (Conversation.empty.saveUserMessage 7 (.text "new question".toList) 0 false).getD .empty

def staleBuffer : Buffer where
  conversation := some 0
  turnId := some 0
  terminalReason := some "interrupted".toList
  events :=
    [.cons "type".toList (.str "response.output_text.delta".toList)
      (.cons "delta".toList (.str "old answer".toList) .nil)]
  question := 1

def staleAttempts : List Attempt := [⟨staleBuffer,8,none,0⟩,⟨staleBuffer,9,none,0⟩]

def askedStore : Store := fun id => if id = 0 then some askedAgain else none

theorem askedStore_answered_once :
    askedStore 0 = some askedAgain ∧
      ∃ d change added, sealOrphanTurns askedStore staleAttempts 0 = some d ∧
        d.rows = askedAgain.rows.map change ++ added ∧ added.length ≤ 1 := by
  have stored : askedStore 0 = some askedAgain := rfl
  obtain ⟨d,change,added,final,rows,_,_,few,_⟩ :=
    recovery_marks_and_answers_once askedStore staleAttempts 0 askedAgain stored
  exact ⟨stored,d,change,added,final,rows,few⟩

/-- The buffer outlived its turn: its text becomes the reply to the question that now has its number. -/
theorem stale_buffer_answers_another_question :
    staleBuffer.question = 1 ∧
      (sealOrphanTurns askedStore staleAttempts 0).map (fun d => d.rows.map fun row => (row.id,row.content)) =
        some [(7,.text "new question".toList),(8,.text "old answer".toList)] := by decide +kernel

end Cowork.TurnRecovery
