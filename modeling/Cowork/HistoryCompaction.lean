import Cowork.TextFiles
import Cowork.WholeTurns
import Cowork.Snapshots

/-!
The history that a remote turn is seeded with. A pod may report that it folded the first
entries into a summary; the count is mapped back to a message (`compactionCutoffIndex`)
by the history as read for the turn, and later turns are seeded with the summary and the
messages after it (`remoteSeedHistory`).
-/
namespace Cowork.HistoryCompaction
open JsonText List Conversations
open WholeTurns hiding Action step start
open Snapshots Transitions

/-! ## The seed of a turn -/

structure Face where
  id : Nat
  role : Role
  content : Content
deriving DecidableEq

/-- `scrubbed_openai_dump`, with the id of its message. -/
def face (m : Message) : Face := ⟨m.id,m.role,m.content⟩

def visible (m : Message) : Bool := !m.pending && decide (m.role ≠ .other)

def replayable (c : Conversation) : List Face :=
  ((c.getOrderedMessages false).filter fun m => m.role ≠ .other).map face

inductive Entry where
  | summary (text : Text)
  | separator
  | message (face : Face)
deriving DecidableEq

/-- `seed_info`. -/
structure Seed where
  messages : List Face
  tailStart : Nat
  syntheticLen : Nat

/-- Where the replayed tail starts, and the summary of what is before it: stale once its cutoff message is gone. -/
def resume (ordered : List Face) (summary : Option Text) (cutoff : Option Nat) : Nat × Option Text :=
  match summary.filter fun text => !text.isEmpty,cutoff with
  | some text,some id =>
    match ordered.findIdx? fun m => m.id = id with
    | some place => (place + 1,some text)
    | none => (0,none)
  | kept,_ => (0,kept)

def seedHistory (ordered : List Face) (summary : Option Text) (cutoff : Option Nat) : List Entry × Seed :=
  let (tailStart,kept) := resume ordered summary cutoff
  let tail := ordered.drop tailStart
  match kept with
  | some text =>
    -- Two messages of the user do not follow each other.
    if tail.head?.any fun m => m.role = .user then
      (.summary text :: .separator :: tail.map .message,⟨ordered,tailStart,2⟩)
    else (.summary text :: tail.map .message,⟨ordered,tailStart,1⟩)
  | none => (tail.map .message,⟨ordered,tailStart,0⟩)

def remoteSeedHistory (enabled : Bool) (c : Conversation) (summary : Option Text) (cutoff : Option Nat) :
    List Entry × Option Seed :=
  if enabled then
    let (entries,seed) := seedHistory (replayable c) summary cutoff
    (entries,some seed)
  else ((replayable c).map .message,none)

/-! ## A reported compaction -/

def compactionCutoffIndex (seed : Seed) (coveredThrough : Int) (total : Nat) : Option Nat :=
  let covered := coveredThrough - seed.syntheticLen
  if covered ≤ 0 then none
  else
    let idx := seed.tailStart + covered - 1
    if 0 ≤ idx ∧ idx < total then some idx.toNat else none

/-- `data.get("summary")`, if it is a text that is not empty. -/
def summaryOf (data : Fields) : Option Text :=
  match data.get "summary".toList with
  | some (.str text) => if text.isEmpty then none else some text
  | _ => none

/-- `data.get("covered_through") or 0`, if it is an integer and no boolean. A float is none; `0.0` is not saved
    either. -/
def coveredThroughOf (data : Fields) : Option Int :=
  match data.get "covered_through".toList with
  | none | some .null | some (.bool false) => some 0
  | some (.bool true) => none
  | some (.num number) => number.toInt?
  | some (.str text) => if text.isEmpty then some 0 else none
  | some (.arr items) => if items = .nil then some 0 else none
  | some (.obj fields) => if fields = .nil then some 0 else none

def maxCompactionSummaryBytes : Nat := 64 * 1024

/-- What `_persist_remote_compaction` saves for a frame: the summary, and the place of
    the last message that it covers. -/
def accepted (seed : Seed) (data : Fields) : Option (Text × Nat) :=
  match summaryOf data,coveredThroughOf data with
  | some summary,some coveredThrough =>
    if maxCompactionSummaryBytes < (TextFiles.encode summary).length then none
    else (compactionCutoffIndex seed coveredThrough seed.messages.length).map fun idx => (summary,idx)
  | _,_ => none

variable {seed : Seed} {idx : Nat} {rows : List Message}

theorem accepted_place {data : Fields} {summary : Text}
    (saved : accepted seed data = some (summary,idx)) : seed.tailStart ≤ idx ∧ idx < seed.messages.length ∧
    ((coveredThroughOf data).getD 0).toNat = seed.syntheticLen + (idx + 1 - seed.tailStart) := by
  grind [accepted,compactionCutoffIndex]

/-! ## Conversations with remote turns -/

/-- A conversation with the seed of the turn in progress. The last fields are the entries that its pod was given, the
    messages that the counts of saved frames covered there, the place last saved for the seed, and the ids ever
    replayed and given out. -/
structure Chat where
  talk : Talk
  historySummary : Option Text
  cutoff : Option Nat
  seed : Option Seed
  entries : List Entry
  covered : List Nat
  saved : Option Nat
  shown : List Nat
  spent : List Nat

inductive Action where
  | ask (question : Question)
  | answer (answer : Answer)
  | delete (anchor : Nat)
  | finalize (message : Option Nat)
  | seed (enabled : Bool)
  | frame (data : Fields)

variable {chat : Chat} {talk : Talk} {action : Action}

def Chat.replayed (chat : Chat) : List Face := replayable chat.talk.conversation

def Chat.record (chat : Chat) (talk : Talk) : Chat :=
  { chat with
    talk := talk,
    shown := chat.shown ++ (replayable talk.conversation).map Face.id,
    spent := chat.spent ++ talk.conversation.rows.map fun m => m.id }

def Chat.seeding (chat : Chat) (enabled : Bool) : List Entry × Option Seed :=
  remoteSeedHistory enabled chat.talk.conversation chat.historySummary chat.cutoff

def Entry.messageId : Entry → Option Nat
  | .message m => some m.id
  | .summary _ | .separator => none

/-- The messages among the first entries that the pod was given, as many as its frame counts. -/
def Chat.counted (chat : Chat) (data : Fields) : List Nat :=
  (chat.entries.take ((coveredThroughOf data).getD 0).toNat).filterMap Entry.messageId

/-- `_persist_remote_compaction`. -/
def Chat.persist (chat : Chat) (data : Fields) : Chat :=
  match chat.seed with
  | none => chat
  | some seed =>
    match accepted seed data with
    | none => chat
    | some (summary,idx) =>
      match seed.messages[idx]? with
      | none => chat
      | some last =>
        { chat with
          historySummary := some summary,
          cutoff := some last.id,
          covered := chat.covered ++ chat.counted data,
          saved := some idx }

def step (chat : Chat) : Action → Chat
  | .ask question =>
    if question.id ∈ chat.spent then chat else chat.record (WholeTurns.step chat.talk (.ask question))
  | .answer answer =>
    if answer.drafts.any fun draft => draft.id ∈ chat.spent then chat
    else chat.record (WholeTurns.step chat.talk (.answer answer))
  | .delete anchor => chat.record (WholeTurns.step chat.talk (.delete anchor))
  | .finalize message =>
    chat.record { chat.talk with conversation := chat.talk.conversation.clearPending message }
  | .seed enabled =>
    { chat with seed := (chat.seeding enabled).2, entries := (chat.seeding enabled).1, saved := none }
  | .frame data => chat.persist data

def start (talk : Talk) : Chat :=
  { talk := talk, historySummary := none, cutoff := none, seed := none, entries := [], covered := [], saved := none,
    shown := (replayable talk.conversation).map Face.id, spent := talk.conversation.rows.map fun m => m.id }

/-! ## What keeps the history in its order -/

def lastToFinish (message : Option Nat) : List Message → Bool
  | [] => true
  | row :: rest =>
    if row.pending && message.all fun id => row.id = id then rest.all fun m => m.pending
    else lastToFinish message rest

/-- An answer is saved while its question is the last row, with tool rows of known
    roles, and a pending question is finalized before a later turn ends. -/
def Timely (chat : Chat) : Action → Prop
  | .answer answer =>
    InPlace chat.talk (.answer answer) ∧ answer.toolRows.all (fun row => row.role ≠ .other) = true
  | .finalize message => lastToFinish message chat.talk.conversation.rows = true
  | _ => True

instance (chat : Chat) (action : Action) : Decidable (Timely chat action) := by
  cases action <;> unfold Timely <;> infer_instance

/-! ## How the replayed history changes -/

def seen (rows : List Message) : List Face := (rows.filter visible).map face

theorem replayable_eq (c : Conversation) : replayable c = seen c.rows := by
  rw [replayable,Conversation.getOrderedMessages,if_neg Bool.false_ne_true,filter_filter]
  congr 2
  funext m
  exact Bool.and_comm _ _

@[simp] theorem seen_append (front rest : List Message) : seen (front ++ rest) = seen front ++ seen rest := by
  simp [seen]

theorem mem_seen {rows : List Message} {m : Face} (member : m ∈ seen rows) :
    ∃ row ∈ rows, face row = m ∧ row.pending = false := by
  obtain ⟨row,kept,rfl⟩ := mem_map.mp member
  obtain ⟨there,shown⟩ := mem_filter.mp kept
  exact ⟨row,there,rfl,by simpa using (Bool.and_eq_true_iff.mp shown).1⟩

theorem seen_cons (row : Message) (rest : List Message) :
    seen (row :: rest) = (if visible row then [face row] else []) ++ seen rest := by
  unfold seen
  rw [filter_cons]
  cases visible row <;> simp

theorem seen_map {change : Message → Message} (keeps : KeepsShape change)
    (flags : ∀ m, (change m).pending = m.pending) (rows : List Message) : seen (rows.map change) = seen rows := by
  induction rows with
  | nil => rfl
  | cons row rest tail =>
    have shown : visible (change row) = visible row := by rw [visible,visible,flags,keeps.role]
    have same : face (change row) = face row := by rw [face,face,keeps.id,keeps.role,keeps.content]
    rw [map_cons,seen_cons,seen_cons,tail,shown,same]

theorem seen_pending (pending : rows.all (fun m => m.pending) = true) : seen rows = [] := by
  rw [seen,filter_eq_nil_iff.mpr]
  · rfl
  · intro row member
    simp [visible,all_eq_true.mp pending row member]

theorem seen_clear {message : Option Nat} (late : lastToFinish message rows = true) :
    ∃ more, seen (rows.map fun m => if message.all fun id => m.id = id then { m with pending := false } else m) =
        seen rows ++ more ∧
      ∀ m ∈ more, ∃ row ∈ rows, row.pending = true ∧ row.id = m.id := by
  induction rows with
  | nil => exact ⟨[],rfl,nofun⟩
  | cons row rest tail =>
    rw [lastToFinish] at late
    split at late
    · rename_i first
      have all : (row :: rest).all (fun m => m.pending) = true := by
        rw [all_cons,late,(Bool.and_eq_true_iff.mp first).1]; rfl
      refine ⟨_,by rw [seen_pending all,nil_append],?_⟩
      intro m member
      obtain ⟨changed,there,rfl,_⟩ := mem_seen member
      grind only [mem_map,all_eq_true,face]
    · obtain ⟨more,same,known⟩ := tail late
      refine ⟨more,?_,fun m member => ?_⟩
      · have kept : (if message.all fun id => row.id = id then { row with pending := false } else row) = row := by
          obtain ⟨⟨id,role,content,pending⟩,seq⟩ := row
          grind
        rw [map_cons,kept,seen_cons,seen_cons,same,append_assoc]
      · obtain ⟨old,inside,facts⟩ := known m member
        exact ⟨old,mem_cons_of_mem row inside,facts⟩

theorem lastToFinish_last (unique : (rows.map fun m => m.id).Nodup) {row : Message}
    (last : rows.getLast? = some row) : lastToFinish (some row.id) rows = true := by
  induction rows <;> grind [lastToFinish]

/-! ## Chats in which every action is timely -/

/-- The rows are whole turns of known roles, every message that is replayed was shown, no pending one was, and all ids
    were given out. -/
structure Recorded (chat : Chat) : Prop where
  whole : Whole chat.talk
  spoken : ∀ row ∈ chat.talk.conversation.rows, row.role ≠ .other
  shown : ∀ m ∈ chat.replayed, m.id ∈ chat.shown
  hidden : ∀ row ∈ chat.talk.conversation.rows, row.pending = true → row.id ∉ chat.shown
  spent : ∀ row ∈ chat.talk.conversation.rows, row.id ∈ chat.spent
  given : ∀ id ∈ chat.shown, id ∈ chat.spent

theorem replayed_unique (c : Conversation) : ((replayable c).map Face.id).Nodup := by
  have same : (seen c.rows).map Face.id = (c.rows.filter visible).map fun m => m.id := by
    rw [seen,map_map]; rfl
  rw [replayable_eq,same]
  exact c.unique.sublist (filter_sublist.map _)

theorem recorded_next (recorded : Recorded chat) (whole : Whole talk)
    (spoken : ∀ row ∈ talk.conversation.rows, row.role ≠ .other)
    (pending : ∀ row ∈ talk.conversation.rows, row.pending = true → row.id ∉ chat.shown) :
    Recorded (chat.record talk) := by
  have face := fun m => @mem_seen talk.conversation.rows m
  have distinct := fun {row other} => @inj_on_of_nodup_map _ _ _ _ talk.conversation.unique row other
  have given := recorded.given
  refine ⟨whole,spoken,fun m member => mem_append_right _ (mem_map_of_mem member),?_,
    fun row member => mem_append_right _ (mem_map_of_mem member),?_⟩
  all_goals grind [Chat.record,replayable_eq,HistoryCompaction.face]

structure Grown (chat : Chat) (talk : Talk) : Prop where
  whole : Whole talk
  spoken : ∀ row ∈ talk.conversation.rows, row.role ≠ .other
  pending : ∀ row ∈ talk.conversation.rows, row.pending = true → row.id ∉ chat.shown
  grows : Grows Face.id chat.shown chat.replayed (replayable talk.conversation)

section
variable (recorded : Recorded chat)
include recorded

theorem grown_same : Grown chat chat.talk :=
  ⟨recorded.whole,recorded.spoken,recorded.hidden,grows_refl _ _⟩

theorem grown_ask {question : Question} (new : question.id ∉ chat.spent) :
    Grown chat (WholeTurns.step chat.talk (.ask question)) := by
  have whole := whole_ask recorded.whole question
  revert whole
  simp only [WholeTurns.step]
  cases saved : chat.talk.conversation.saveUserMessage question.id question.content question.createdAt
      question.pending with
  | none => exact fun _ => grown_same recorded
  | some next =>
    intro whole
    have rows : next.rows = chat.talk.conversation.rows ++ [⟨question.draft,chat.talk.conversation.nextSeq⟩] :=
      (append_rows saved).2
    have unknown : question.id ∉ chat.shown := fun known => new (recorded.given _ known)
    have spoken := recorded.spoken
    have hidden := recorded.hidden
    refine ⟨whole,?_,?_,?_⟩
    · grind [Question.draft]
    · grind [Question.draft]
    · rw [Chat.replayed,replayable_eq,replayable_eq,rows,seen_append]
      refine grows_append _ fun m member => ?_
      obtain ⟨row,there,rfl,_⟩ := mem_seen member
      rw [mem_singleton.mp there]; exact unknown

theorem grown_clear {message : Option Nat}
    (late : lastToFinish message chat.talk.conversation.rows = true) :
    Grown chat { chat.talk with conversation := chat.talk.conversation.clearPending message } := by
  obtain ⟨turns,same,own⟩ := recorded.whole
  have keeps := keeps_clearPending message
  refine ⟨whole_revise own keeps same,?_,?_,?_⟩
  · intro row member
    obtain ⟨old,there,rfl⟩ := mem_map.mp member
    rw [keeps.role]; exact recorded.spoken old there
  · intro row member waits
    obtain ⟨old,there,rfl⟩ := mem_map.mp member
    rw [keeps.id]; exact recorded.hidden old there (keeps.pending old waits)
  · obtain ⟨more,after,known⟩ := seen_clear late
    rw [Chat.replayed,replayable_eq,replayable_eq,Conversation.clearPending,revise_rows,after]
    refine grows_append _ fun m member => ?_
    obtain ⟨row,there,waits,same⟩ := known m member
    exact same ▸ recorded.hidden row there waits

theorem grown_answer {answer : Answer}
    (new : ∀ draft ∈ answer.drafts, draft.id ∉ chat.spent) (timely : Timely chat (.answer answer)) :
    Grown chat (WholeTurns.step chat.talk (.answer answer)) := by
  have whole := whole_answer recorded.whole answer timely.1
  revert whole
  simp only [WholeTurns.step]
  cases asking : chat.talk.asking with
  | none => exact fun _ => grown_same recorded
  | some question =>
    simp only
    cases saved : (chat.talk.conversation.clearPending (some question)).saveAssistantTurn answer.toAssistantTurn with
    | none => exact fun _ => grown_same recorded
    | some next =>
      intro whole
      obtain ⟨row,final,rfl,_⟩ := unanswered_last (timely.1 question (by rw [asking]; rfl))
      have cleared := grown_clear recorded (lastToFinish_last chat.talk.conversation.unique final)
      rcases saveAssistantTurn_rows saved with ⟨_,rfl⟩ | ⟨_,change,keeps,flags,rows⟩
      · exact ⟨whole,cleared.spoken,cleared.pending,cleared.grows⟩
      · have drafted {m : Message} {base : Nat} (member : m ∈ numbered base answer.drafts) :
            m.toDraft ∈ answer.drafts := by
          rw [← numbered_draft base answer.drafts]
          exact mem_map_of_mem member
        have settled : ∀ draft ∈ answer.drafts, draft.pending = false ∧ draft.role ≠ .other := by
          intro draft member
          rcases mem_append.mp member with tool | reply
          · obtain ⟨row,there,rfl⟩ := mem_map.mp tool
            have known : row.role ≠ .other := by simpa using all_eq_true.mp timely.2 row there
            exact ⟨rfl,known⟩
          · rw [mem_singleton.mp reply]; exact ⟨rfl,by simp [AssistantTurn.reply]⟩
        refine ⟨whole,?_,?_,?_⟩
        · grind only [mem_map,keeps.role,mem_append,cleared.spoken]
        · grind only [mem_map,keeps.id,mem_append,cleared.pending]
        · obtain ⟨count,more,same,unknown⟩ := cleared.grows
          rw [replayable_eq] at same
          refine ⟨count,more ++ seen
            (numbered (chat.talk.conversation.clearPending (some row.id)).nextSeq answer.drafts),?_,?_⟩
          · rw [replayable_eq,rows,seen_map keeps flags,seen_append,same,append_assoc]
          · intro m member
            rcases mem_append.mp member with early | added
            · exact unknown m early
            · obtain ⟨row,there,rfl,_⟩ := mem_seen added
              exact fun known => new _ (drafted there) (recorded.given _ known)

end

theorem deleteTurn_cut {c d : Conversation} {anchor : Nat} (deleted : deleteTurn c anchor = .ok d) :
    ∃ place, d = c.cut place := by
  unfold deleteTurn at deleted
  split at deleted
  · cases deleted
  · split at deleted
    · cases deleted
    · rename_i anchor _
      cases located : cutFrom c.rows _ anchor with
      | error _ => rw [located] at deleted; cases deleted
      | ok place =>
        rw [located] at deleted
        cases deleted; exact ⟨place,rfl⟩

theorem grown_delete (recorded : Recorded chat) (anchor : Nat) :
    Grown chat (WholeTurns.step chat.talk (.delete anchor)) := by
  have whole := whole_delete recorded.whole anchor
  revert whole
  simp only [WholeTurns.step]
  cases deleted : deleteTurn chat.talk.conversation anchor with
  | error _ => exact fun _ => grown_same recorded
  | ok kept =>
    intro whole
    obtain ⟨place,rfl⟩ := deleteTurn_cut deleted
    refine ⟨whole,fun row member => recorded.spoken row (mem_of_mem_take member),
      fun row member => recorded.hidden row (mem_of_mem_take member),?_⟩
    rw [Chat.replayed,replayable_eq,replayable_eq]
    exact grows_cut _ ((( take_prefix place _).filter _).map _)

theorem step_cases (recorded : Recorded chat) (timely : Timely chat action) :
    (∃ talk, step chat action = chat.record talk ∧ Grown chat talk) ∨ step chat action = chat ∨
      (∃ enabled, action = .seed enabled) ∨ ∃ data, action = .frame data := by
  cases action <;> grind [step,grown_ask,grown_answer,grown_delete,grown_clear,Timely]

/-! ## What a seeded turn keeps -/

theorem persist_cases (chat : Chat) (data : Fields) :
    chat.persist data = chat ∨
      ∃ seed summary idx last, chat.seed = some seed ∧ accepted seed data = some (summary,idx) ∧
        seed.messages[idx]? = some last ∧
        chat.persist data =
          { chat with
            historySummary := some summary,
            cutoff := some last.id,
            covered := chat.covered ++ chat.counted data,
            saved := some idx } := by grind only [Chat.persist]

theorem accepted_summary {data : Fields} {summary : Text}
    (saved : accepted seed data = some (summary,idx)) : summary.isEmpty = false := by
  grind only [accepted,summaryOf,Option.map_eq_some_iff]

def Chat.past (chat : Chat) (seed : Seed) : Nat := (chat.saved.map (· + 1)).getD seed.tailStart

/-- A seed against the chat now: the history is what it was at the seeding, cut or grown; what was not replayed was
    covered; the cutoff is where the seed, or the last frame saved for it, put it. -/
structure Placed (chat : Chat) (seed : Seed) : Prop where
  unique : (seed.messages.map Face.id).Nodup
  known : ∀ m ∈ seed.messages, m.id ∈ chat.shown
  follows : Follows Face.id seed.messages chat.replayed
  given : ∃ heading, chat.entries = heading ++ (seed.messages.drop seed.tailStart).map .message ∧
    heading.length = seed.syntheticLen
  counted : ∀ m ∈ seed.messages.take seed.tailStart, m.id ∈ chat.covered
  place : ∀ k part, chat.cutoff = some k → through Face.id k chat.replayed = some part →
    part = seed.messages.take (chat.past seed)
  bounds : seed.tailStart ≤ seed.messages.length ∧ ∀ idx, chat.saved = some idx → seed.tailStart ≤ idx

structure Seeded (chat : Chat) : Prop where
  recorded : Recorded chat
  told : ∀ k, chat.cutoff = some k → ∃ text, chat.historySummary = some text ∧ text.isEmpty = false
  untold : chat.cutoff = none → chat.historySummary = none
  known : ∀ k, chat.cutoff = some k → k ∈ chat.shown
  covers : ∀ k part, chat.cutoff = some k → through Face.id k chat.replayed = some part →
    ∀ m ∈ part, m.id ∈ chat.covered
  placed : ∀ seed, chat.seed = some seed → Placed chat seed

theorem resume_cases (seeded : Seeded chat) :
    (∃ k part text, chat.cutoff = some k ∧ through Face.id k chat.replayed = some part ∧
      resume chat.replayed chat.historySummary chat.cutoff = (part.length,some text)) ∨
    ((∀ k, chat.cutoff = some k → through Face.id k chat.replayed = none) ∧
      resume chat.replayed chat.historySummary chat.cutoff = (0,none)) := by
  cases cutoff : chat.cutoff with
  | none =>
    refine .inr ⟨nofun,?_⟩
    rw [seeded.untold cutoff]; rfl
  | some k =>
    obtain ⟨text,told,full⟩ := seeded.told k cutoff
    have kept : chat.historySummary.filter (fun text => !text.isEmpty) = some text := by
      rw [told]; simp [full]
    simp only [resume,kept]
    cases located : chat.replayed.findIdx? fun m => m.id = k with
    | none =>
      refine .inr ⟨?_,rfl⟩
      intro other same
      cases same
      rw [through,located]; rfl
    | some place =>
      refine .inl ⟨k,chat.replayed.take (place + 1),text,rfl,by rw [through,located]; rfl,?_⟩
      obtain ⟨bound,_⟩ := findIdx?_eq_some_iff_getElem.mp located
      rw [length_take,Nat.min_eq_left bound]

theorem seedHistory_eq (ordered : List Face) (summary : Option Text) (cutoff : Option Nat) :
    ∃ heading, seedHistory ordered summary cutoff =
        (heading ++ (ordered.drop (resume ordered summary cutoff).1).map .message,
          ⟨ordered,(resume ordered summary cutoff).1,heading.length⟩) ∧
      (∀ m, Entry.message m ∉ heading) ∧ ((resume ordered summary cutoff).2 = none → heading = []) := by
  unfold seedHistory
  generalize resume ordered summary cutoff = resumed
  obtain ⟨tailStart,kept⟩ := resumed
  cases kept with
  | none => exact ⟨[],rfl,nofun,fun _ => rfl⟩
  | some text =>
    simp only
    split
    · exact ⟨[.summary text,.separator],rfl,by simp,nofun⟩
    · exact ⟨[.summary text],rfl,by simp,nofun⟩

theorem Placed.counts (placed : Placed chat seed) {data : Fields} {summary : Text}
    (saved : accepted seed data = some (summary,idx)) {m : Face}
    (member : m ∈ (seed.messages.take (idx + 1)).drop seed.tailStart) : m.id ∈ chat.counted data := by
  obtain ⟨heading,given,length⟩ := placed.given
  unfold Chat.counted
  rw [given,(accepted_place saved).2.2,← length,take_length_add_append,filterMap_append]
  refine mem_append_right _ (mem_filterMap.mpr ⟨.message m,?_,rfl⟩)
  rw [← map_take,take_drop,Nat.add_sub_cancel' (Nat.le_succ_of_le (accepted_place saved).1)]
  exact mem_map_of_mem member

theorem seeded_record (seeded : Seeded chat) (grown : Grown chat talk) : Seeded (chat.record talk) := by
  have before {k : Nat} {part : List Face} (saved : chat.cutoff = some k)
      (found : through Face.id k (chat.record talk).replayed = some part) :
      through Face.id k chat.replayed = some part := through_grows grown.grows (seeded.known k saved) found
  refine ⟨recorded_next seeded.recorded grown.whole grown.spoken grown.pending,seeded.told,seeded.untold,
    fun k saved => mem_append_left _ (seeded.known k saved),
    fun k part saved found => seeded.covers k part saved (before saved found),fun seed taken => ?_⟩
  have placed := seeded.placed seed taken
  exact ⟨placed.unique,fun m member => mem_append_left _ (placed.known m member),
    follows_grows placed.follows placed.known grown.grows,placed.given,placed.counted,
    fun k part saved found => placed.place k part saved (before saved found),placed.bounds⟩

theorem seeded_seed (seeded : Seeded chat) (enabled : Bool) : Seeded (step chat (.seed enabled)) := by
  have recorded := seeded.recorded
  refine ⟨⟨recorded.whole,recorded.spoken,recorded.shown,recorded.hidden,recorded.spent,recorded.given⟩,seeded.told,
    seeded.untold,seeded.known,seeded.covers,?_⟩
  intro seed taken
  cases enabled with
  | false => cases taken
  | true =>
    obtain ⟨heading,same,_⟩ := seedHistory_eq chat.replayed chat.historySummary chat.cutoff
    have seedIs : seed = ⟨chat.replayed,(resume chat.replayed chat.historySummary chat.cutoff).1,heading.length⟩ := by
      have shape : some (seedHistory chat.replayed chat.historySummary chat.cutoff).2 = some seed := taken
      rw [same] at shape
      exact (Option.some.inj shape).symm
    subst seedIs
    refine ⟨replayed_unique _,recorded.shown,follows_refl _,⟨heading,congrArg Prod.fst same,rfl⟩,?_,?_,?_,nofun⟩
    all_goals rcases resume_cases seeded with ⟨k,part,text,cutoff,found,resumed⟩ | ⟨gone,resumed⟩
    · rw [resumed,through_take found]; exact seeded.covers k part cutoff found
    · simp [resumed]
    · intro k' part' cutoff' found'
      cases cutoff.symm.trans cutoff'
      cases found.symm.trans found'
      rw [resumed]; exact (through_take found).symm
    · exact fun k part cutoff found => nomatch (gone k cutoff).symm.trans found
    · rw [resumed,← through_take found]; exact length_take_le' _ _
    · rw [resumed]; exact Nat.zero_le _

theorem cut_through (placed : Placed chat seed) {last : Face}
    (there : seed.messages[idx]? = some last) {part : List Face}
    (found : through Face.id last.id chat.replayed = some part) : part = seed.messages.take (idx + 1) :=
  through_follows placed.follows placed.unique there found

theorem seeded_frame (seeded : Seeded chat) (data : Fields) : Seeded (step chat (.frame data)) := by
  rcases persist_cases chat data with same | ⟨seed,summary,idx,last,taken,saved,there,same⟩
  · rw [step,same]; exact seeded
  · have recorded := seeded.recorded
    have placed := seeded.placed seed taken
    have bounds := accepted_place saved
    rw [step,same]
    refine ⟨⟨recorded.whole,recorded.spoken,recorded.shown,recorded.hidden,recorded.spent,recorded.given⟩,
      fun k _ => ⟨summary,rfl,accepted_summary saved⟩,nofun,?_,?_,?_⟩
    · rintro k ⟨⟩; exact placed.known last (mem_of_getElem? there)
    · rintro k part ⟨⟩ found m member
      rw [cut_through placed there found,← take_append_drop seed.tailStart (seed.messages.take (idx + 1)),
        take_take,Nat.min_eq_left (by omega)] at member
      rcases mem_append.mp member with early | late
      · exact mem_append_left _ (placed.counted m early)
      · exact mem_append_right _ (placed.counts saved late)
    · intro other also
      cases taken.symm.trans also
      refine ⟨placed.unique,placed.known,placed.follows,placed.given,
        fun m member => mem_append_left _ (placed.counted m member),?_,placed.bounds.1,?_⟩
      · rintro k part ⟨⟩ found; exact cut_through placed there found
      · rintro place ⟨⟩; exact bounds.1

theorem seeded_step (chat : Chat) (action : Action) (seeded : Seeded chat) (timely : Timely chat action) :
    Seeded (step chat action) := by grind only [step_cases,seeded.recorded,seeded_record,seeded_seed,seeded_frame]

theorem seeded_start (whole : Whole talk) (spoken : ∀ row ∈ talk.conversation.rows, row.role ≠ .other) :
    Seeded (start talk) := by
  have face := fun m => @mem_seen talk.conversation.rows m
  have distinct := fun {row other} => @inj_on_of_nodup_map _ _ _ _ talk.conversation.unique row other
  refine ⟨⟨whole,spoken,fun m member => mem_map_of_mem member,?_,fun row member => mem_map_of_mem member,?_⟩,
    nofun,fun _ => rfl,nofun,nofun,nofun⟩
  all_goals grind [start,replayable_eq,HistoryCompaction.face]

/-! ## Calls and their results -/

def toolBlocks (m : Face) : List Block := if m.content.isToolRow then blocksOf m.content else []

def Entry.toolBlocks : Entry → List Block
  | .message m => HistoryCompaction.toolBlocks m
  | _ => []

theorem paired_append {calls : List Text} {front : List Block} (closed : paired calls front = true)
    (rest : List Block) : paired calls (front ++ rest) = paired [] rest := by
  induction front generalizing calls with
  | nil => rw [isEmpty_iff.mp closed,nil_append]
  | cons block front tail => cases block <;> grind only [cons_append,paired]

theorem paired_result {calls : List Text} {front rest : List Block} {id : Text} {content : Value}
    (pairs : paired calls (front ++ .toolResult id content :: rest) = true) :
    id ∈ calls ∨ ∃ input, .toolUse id input ∈ front := by
  induction front generalizing calls with
  | nil => exact .inl (by simpa using (Bool.and_eq_true_iff.mp pairs).1)
  | cons block front tail =>
    cases block with
    | toolUse other input =>
      rcases tail pairs with opened | ⟨input',member⟩
      all_goals grind only [mem_cons]
    | toolResult other content' =>
      rcases tail (Bool.and_eq_true_iff.mp pairs).2 with opened | ⟨input',member⟩
      · exact .inl (mem_of_mem_erase opened)
      · exact .inr ⟨input',mem_cons_of_mem _ member⟩
    | plain value => cases pairs

theorem paired_flatMap {α : Type} {blocks : α → List Block} {list : List α}
    (each : ∀ x ∈ list, paired [] (blocks x) = true) : paired [] (list.flatMap blocks) = true := by
  induction list with
  | nil => rfl
  | cons x rest tail =>
    rw [flatMap_cons,paired_append (each x mem_cons_self)]
    exact tail fun y member => each y (mem_cons_of_mem x member)

theorem turn_blocks (turn : Turn) :
    turn.rows.flatMap (fun row => toolBlocks (face row)) = turn.tools.flatMap fun row => blocksOf row.content := by
  have other (row : Message) (shown : row.isToolRow = false) : toolBlocks (face row) = [] :=
    if_neg (Bool.eq_false_iff.mp shown)
  have tools : turn.tools.flatMap (fun row => toolBlocks (face row)) =
      turn.tools.flatMap fun row => blocksOf row.content :=
    flatMap_congr fun row member => if_pos (turn.hidden row member).1
  have reply : turn.reply.toList.flatMap (fun row => toolBlocks (face row)) = [] := by
    cases reply : turn.reply with
    | none => rfl
    | some row => simp [other row (turn.answers row reply).2.1]
  rw [Turn.rows,flatMap_cons,flatMap_append,other _ turn.asks.2,tools,reply,append_nil,nil_append]

theorem replayed_paired (recorded : Recorded chat) : paired [] (chat.replayed.flatMap toolBlocks) = true := by
  obtain ⟨turns,rows,_⟩ := recorded.whole
  have shown : chat.talk.conversation.rows.filter visible =
      chat.talk.conversation.rows.filter fun row => !row.pending :=
    filter_congr fun row member => by simp [visible,recorded.spoken row member]
  rw [Chat.replayed,replayable_eq,seen,shown,rows,replayed_turns,flatMap_map,history,flatMap_assoc]
  refine paired_flatMap fun turn _ => ?_
  rw [turn_blocks]
  exact turn.pairs

def Unsplit (chat : Chat) : Action → Prop
  | .frame data => ∀ seed ∈ chat.seed, ∀ saved ∈ accepted seed data,
    paired [] ((seed.messages.take (saved.2 + 1)).flatMap toolBlocks) = true
  | _ => True

def Closed (chat : Chat) : Prop :=
  ∀ k part, chat.cutoff = some k → through Face.id k chat.replayed = some part →
    paired [] (part.flatMap toolBlocks) = true

theorem closed_step (seeded : Seeded chat) (closed : Closed chat)
    (timely : Timely chat action) (unsplit : Unsplit chat action) : Closed (step chat action) := by
  rcases step_cases seeded.recorded timely with ⟨talk,same,grown⟩ | same | ⟨enabled,rfl⟩ | ⟨data,rfl⟩
  · rw [same]
    intro k part cutoff found
    exact closed k part cutoff (through_grows grown.grows (seeded.known k cutoff) found)
  · rw [same]; exact closed
  · exact closed
  · rcases persist_cases chat data with same | ⟨seed,summary,idx,last,taken,saved,there,same⟩
    · rw [step,same]; exact closed
    · have whole := unsplit seed taken (summary,idx) saved
      rw [step,same]
      intro k part cutoff found
      cases cutoff
      rw [cut_through (seeded.placed seed taken) there found]
      exact whole

theorem seeding_blocks (chat : Chat) :
    (chat.seeding true).1.flatMap Entry.toolBlocks =
      (chat.replayed.drop (resume chat.replayed chat.historySummary chat.cutoff).1).flatMap toolBlocks := by
  obtain ⟨heading,same,plain,_⟩ := seedHistory_eq chat.replayed chat.historySummary chat.cutoff
  have none : heading.flatMap Entry.toolBlocks = [] := by
    rw [flatMap_eq_nil_iff]
    intro entry member
    cases entry with
    | message m => exact absurd member (plain m)
    | summary _ | separator => rfl
  change (seedHistory chat.replayed chat.historySummary chat.cutoff).1.flatMap Entry.toolBlocks = _
  rw [same,flatMap_append,none,flatMap_map]
  rfl

theorem seeding_paired (seeded : Seeded chat) (closed : Closed chat) (enabled : Bool) :
    paired [] ((chat.seeding enabled).1.flatMap Entry.toolBlocks) = true := by
  have all := replayed_paired seeded.recorded
  cases enabled with
  | false =>
    change paired [] ((chat.replayed.map Entry.message).flatMap Entry.toolBlocks) = true
    rw [flatMap_map]; exact all
  | true =>
    rw [seeding_blocks]
    rcases resume_cases seeded with ⟨k,part,text,cutoff,found,resumed⟩ | ⟨_,resumed⟩
    · rw [resumed]
      rw [← take_append_drop part.length chat.replayed,flatMap_append,through_take found,
        paired_append (closed k part cutoff found)] at all
      exact all
    · rw [resumed]; exact all

/-! ## What is seeded -/

theorem seeded_or_covered (seeded : Seeded chat) (enabled : Bool) {m : Face}
    (member : m ∈ chat.replayed) : (chat.seeding enabled).1.count (.message m) = 1 ∨ m.id ∈ chat.covered := by
  have unique : chat.replayed.Nodup := (replayed_unique chat.talk.conversation).of_map
  have once {part : List Face} (distinct : part.Nodup) (inside : m ∈ part) :
      (part.map Entry.message).count (.message m) = 1 :=
    count_eq_one_of_mem (distinct.map fun _ _ same => Entry.message.inj same) (mem_map_of_mem inside)
  cases enabled with
  | false => exact .inl (once unique member)
  | true =>
    obtain ⟨heading,same,plain,_⟩ := seedHistory_eq chat.replayed chat.historySummary chat.cutoff
    have entries : (chat.seeding true).1 = heading ++
        (chat.replayed.drop (resume chat.replayed chat.historySummary chat.cutoff).1).map .message :=
      congrArg Prod.fst same
    rw [entries,count_append,count_eq_zero.mpr (plain m),Nat.zero_add]
    rcases resume_cases seeded with ⟨k,part,text,cutoff,found,resumed⟩ | ⟨_,resumed⟩
    · rw [← take_append_drop part.length chat.replayed,through_take found] at member
      grind [cases Seeded]
    · rw [resumed]; exact .inl (once unique member)

theorem seeded_again (seeded : Seeded chat) {k : Nat} (cutoff : chat.cutoff = some k)
    (gone : ∀ m ∈ chat.replayed, m.id ≠ k) (enabled : Bool) :
    (chat.seeding enabled).1 = chat.replayed.map .message := by
  cases enabled with
  | false => rfl
  | true =>
    obtain ⟨heading,same,_,empty⟩ := seedHistory_eq chat.replayed chat.historySummary chat.cutoff
    rcases resume_cases seeded with ⟨k',part,text,cutoff',found,_⟩ | ⟨_,resumed⟩
    · grind only [through_none]
    · have entries := congrArg Prod.fst same
      rw [empty (by rw [resumed]),resumed] at entries
      exact entries

/-- As long as the cutoff's message is there, the next cutoff is not before it in the history. -/
def Advances (chat next : Chat) : Prop :=
  ∀ k part, chat.cutoff = some k → through Face.id k next.replayed = some part →
    ∃ k', next.cutoff = some k' ∧ ∀ part', through Face.id k' next.replayed = some part' → part.length ≤ part'.length

def Onward (chat : Chat) : Action → Prop
  | .frame data => ∀ seed ∈ chat.seed, ∀ saved ∈ accepted seed data, ∀ last ∈ chat.saved, last ≤ saved.2
  | _ => True

theorem advances_same {next : Chat} (same : next.cutoff = chat.cutoff) : Advances chat next := by
  grind only [Advances]

theorem advances_step (seeded : Seeded chat) (timely : Timely chat action)
    (onward : Onward chat action) : Advances chat (step chat action) := by
  rcases step_cases seeded.recorded timely with ⟨talk,same,_⟩ | same | ⟨enabled,rfl⟩ | ⟨data,rfl⟩
  · rw [same]; exact advances_same rfl
  · rw [same]; exact advances_same rfl
  · exact advances_same rfl
  · rcases persist_cases chat data with same | ⟨seed,summary,idx,last,taken,saved,there,same⟩
    · rw [step,same]; exact advances_same rfl
    · have placed := seeded.placed seed taken
      have later : chat.past seed ≤ idx + 1 := by
        have known := onward seed taken (summary,idx) saved
        have bound := (accepted_place saved).1
        unfold Chat.past
        cases before : chat.saved with
        | none => exact Nat.le_succ_of_le bound
        | some place => exact Nat.succ_le_succ (known place before)
      rw [step,same]
      intro k part cutoff found
      refine ⟨last.id,rfl,?_⟩
      intro part' found'
      rw [placed.place k part cutoff found,cut_through placed there found']
      simp only [length_take]
      omega

theorem past_seed (seeded : Seeded chat) (taken : chat.seed = some seed) {k : Nat}
    (cutoff : chat.cutoff = some k) {part : List Face} (found : through Face.id k chat.replayed = some part) :
    seed.tailStart ≤ part.length := by
  have placed := seeded.placed seed taken
  have bounds := placed.bounds
  rw [placed.place k part cutoff found]
  unfold Chat.past
  cases saved : chat.saved <;> grind

/-! ## Whole runs -/

def ownersOf (turns : List Turn) : List (Nat × Nat) :=
  turns.flatMap fun turn => (turn.tools ++ turn.reply.toList).map fun row => (row.id,turn.question.id)

theorem lookup_of_mem {pairs : List (Nat × Nat)} (unique : (pairs.map Prod.fst).Nodup) {pair : Nat × Nat}
    (member : pair ∈ pairs) : pairs.lookup pair.1 = some pair.2 := by
  induction pairs <;> grind

theorem ownersOf_ids (turns : List Turn) :
    ((ownersOf turns).map Prod.fst).Sublist ((history turns).map fun row => row.id) := by
  induction turns with
  | nil => exact .slnil
  | cons turn rest tail =>
    rw [history_cons,map_append,ownersOf,flatMap_cons,map_append,map_map]
    exact (sublist_cons_self _ _).append tail

theorem whole_start {c : Conversation} {turns : List Turn} (rows : c.rows = history turns) :
    Whole ⟨c,none,ownersOf turns⟩ := by
  refine ⟨turns,rows,?_⟩
  intro turn member row inside
  have unique := c.unique
  rw [rows] at unique
  have owned : (row.id,turn.question.id) ∈ ownersOf turns :=
    mem_flatMap.mpr ⟨turn,member,mem_map.mpr ⟨row,inside,rfl⟩⟩
  exact lookup_of_mem (unique.sublist (ownersOf_ids turns)) owned

/-- If answers and finalized questions come last when they are saved: every message is seeded once or was covered by a
    saved frame, results come after their calls where no frame ends between the two, and a cutoff whose message is
    gone, or whose counts do not fall, does no harm. -/
theorem no_message_is_dropped (c : Conversation) (turns : List Turn) (rows : c.rows = history turns)
    (spoken : ∀ row ∈ c.rows, row.role ≠ .other) (actions : List Action)
    (timely : Permitted step Timely (start ⟨c,none,ownersOf turns⟩) actions) (chat : Chat)
    (run : reach step (start ⟨c,none,ownersOf turns⟩) actions = chat) :
    (∀ enabled, ∀ m ∈ chat.replayed, (chat.seeding enabled).1.count (.message m) = 1 ∨ m.id ∈ chat.covered) ∧
    (Permitted step Unsplit (start ⟨c,none,ownersOf turns⟩) actions → ∀ enabled front id content rest,
      (chat.seeding enabled).1.flatMap Entry.toolBlocks = front ++ .toolResult id content :: rest →
        ∃ input, .toolUse id input ∈ front) ∧
    (∀ k, chat.cutoff = some k → (∀ m ∈ chat.replayed, m.id ≠ k) → ∀ enabled,
      (chat.seeding enabled).1 = chat.replayed.map .message) ∧
    (∀ seed k part, chat.seed = some seed → chat.cutoff = some k →
      through Face.id k chat.replayed = some part → seed.tailStart ≤ part.length) ∧
    ∀ action, Timely chat action → Onward chat action → Advances chat (step chat action) := by
  have begun := seeded_start (whole_start rows) spoken
  have seeded : Seeded chat := by
    rw [← run]; exact invariant_reach seeded_step begun timely
  refine ⟨?_,?_,?_,?_,?_⟩
  · intro enabled m member; exact seeded_or_covered seeded enabled member
  · intro unsplit enabled front id content rest split
    have keeps : ∀ chat action, Seeded chat ∧ Closed chat → Timely chat action ∧ Unsplit chat action →
        Seeded (step chat action) ∧ Closed (step chat action) := by
      intro chat action held ok
      exact ⟨seeded_step chat action held.1 ok.1,closed_step held.1 held.2 ok.1 ok.2⟩
    have both : Seeded chat ∧ Closed chat := by
      rw [← run]
      exact invariant_reach keeps ⟨begun,nofun⟩ (permitted_and timely unsplit)
    have pairs := seeding_paired both.1 both.2 enabled
    rw [split] at pairs
    exact (paired_result pairs).resolve_left (by simp)
  · intro k cutoff gone enabled; exact seeded_again seeded cutoff gone enabled
  · intro seed k part taken cutoff found; exact past_seed seeded taken cutoff found
  · intro action timely onward; exact advances_step seeded timely onward

/-! ## Frames and questions out of order -/

def sampleFrame (count : Int) : Action :=
  .frame (.cons "summary".toList (.str "Earlier.".toList) (.cons "covered_through".toList (.num (.ofInt count)) .nil))

def sampleNext (id : Nat) : Question := ⟨id,.text "And then?".toList,1,true,rfl⟩

def sampleStart : Chat := start ⟨.empty,none,ownersOf []⟩

def sampleTurns (count : Int) : List Action :=
  [.ask sampleQuestion,.answer sampleAnswer,.ask (sampleNext 6),.seed true,sampleFrame count]

/-- A turn that is folded away, and a question that is deleted. -/
theorem sampleTurns_seeded :
    Permitted step Timely sampleStart (sampleTurns 4 ++ [.delete 6]) ∧
      ∀ m ∈ (reach step sampleStart (sampleTurns 4 ++ [.delete 6])).replayed,
        ((reach step sampleStart (sampleTurns 4 ++ [.delete 6])).seeding true).1.count (.message m) = 1 ∨
          m.id ∈ (reach step sampleStart (sampleTurns 4 ++ [.delete 6])).covered := by
  have timely : Permitted step Timely sampleStart (sampleTurns 4 ++ [.delete 6]) := by decide +kernel
  have spoken : ∀ row ∈ Conversation.empty.rows, row.role ≠ .other := by
    intro row never; cases never
  exact ⟨timely,(no_message_is_dropped .empty [] rfl spoken _ timely _ rfl).1 true⟩

/-- A count between a call and its result orphans the result; a question finalized after a later turn was folded away
    is neither seeded nor covered; a frame that counts less moves the cutoff back. -/
theorem compaction_can_split_drop_and_retreat :
    (Permitted step Timely sampleStart (sampleTurns 2) ∧
      ((reach step sampleStart (sampleTurns 2)).seeding true).1.flatMap Entry.toolBlocks =
        [.toolResult ['a'] .null]) ∧
    (∃ m ∈ (reach step sampleStart (.ask (sampleNext 7) :: sampleTurns 4 ++ [.finalize (some 7)])).replayed,
      .message m ∉ ((reach step sampleStart
        (.ask (sampleNext 7) :: sampleTurns 4 ++ [.finalize (some 7)])).seeding true).1 ∧
      m.id ∉ (reach step sampleStart (.ask (sampleNext 7) :: sampleTurns 4 ++ [.finalize (some 7)])).covered) ∧
    (Permitted step Timely sampleStart (sampleTurns 4 ++ [sampleFrame 1]) ∧
      ¬ Advances (reach step sampleStart (sampleTurns 4))
        (reach step sampleStart (sampleTurns 4 ++ [sampleFrame 1]))) := by
  refine ⟨⟨by decide +kernel,by decide +kernel⟩,?_,by decide +kernel,?_⟩
  · refine ⟨⟨7,.user,.text "And then?".toList⟩,?_,?_,?_⟩
    all_goals decide +kernel
  · intro advances
    obtain ⟨k,cutoff,later⟩ := advances 5 (reach step sampleStart (sampleTurns 4)).replayed (by decide +kernel)
      (by decide +kernel)
    have first : k = 1 := by
      have known : (reach step sampleStart (sampleTurns 4 ++ [sampleFrame 1])).cutoff = some 1 := by decide +kernel
      exact Option.some.inj (cutoff.symm.trans known)
    subst first
    have less := later ((reach step sampleStart (sampleTurns 4)).replayed.take 1) (by decide +kernel)
    revert less
    decide +kernel

end Cowork.HistoryCompaction
