import Mathlib.Data.List.Nodup
import Mathlib.Data.Prod.Lex
import Mathlib.Order.Basic
import Cowork.JsonText

/-!
The messages of a conversation as `ConversationService` stores them, in the one order
that every read uses: by number, then questions before answers, then by id. The writers
put new rows at the end (`append_rows`), change rows in their places or cut the list.
-/
namespace Cowork.Conversations
open JsonText List

/-- Who a message is from; `other` stands for the roles that no turn stores. -/
inductive Role where
  | user | assistant | other
deriving DecidableEq

inductive Block where
  | toolUse (id : Text) (input : Value)
  | toolResult (toolUseId : Text) (content : Value)
  | plain (value : Value)
deriving DecidableEq

inductive Content where
  | text (text : Text)
  | blocks (blocks : List Block)
  | object (fields : Fields)
deriving DecidableEq

/-- `bool(content)`. -/
def Content.truthy : Content → Bool
  | .text words => !words.isEmpty
  | .blocks parts => !parts.isEmpty
  | .object fields => decide (fields ≠ .nil)

/-- A block of type `tool_use` or `tool_result`. -/
def Block.isTool : Block → Bool
  | .plain _ => false
  | _ => true

def Content.isToolRow : Content → Bool
  | .blocks parts => !parts.isEmpty && parts.all Block.isTool
  | _ => false

structure Draft where
  id : Nat
  role : Role
  content : Content
  createdAt : Int
  harness : Option Text
  pending : Bool
  events : List Fields
deriving DecidableEq

structure Message extends Draft where
  seq : Nat
deriving DecidableEq

/-- `_is_tool_row(message.content)`. -/
def Message.isToolRow (message : Message) : Bool := message.content.isToolRow

/-- The columns of `_MESSAGE_ORDER`, compared from the left. -/
abbrev Cursor := ℕ ×ₗ ℕ ×ₗ ℕ

/-- `case((Message.role == Role.user, 0), else_=1)`. -/
def Role.rank (role : Role) : Nat := if role = .user then 0 else 1

/-- `_message_cursor_key`. -/
def Message.key (message : Message) : Cursor := toLex (message.seq,toLex (message.role.rank,message.id))

theorem key_id {a b : Message} (same : a.key = b.key) : a.id = b.id := by
  have parts := congrArg (fun key => (ofLex (ofLex key).2).2) same
  exact parts

theorem key_lt_of_seq {a b : Message} (less : a.seq < b.seq) : a.key < b.key :=
  Prod.Lex.toLex_lt_toLex.mpr (.inl less)

theorem seq_le_of_key {a b : Message} (less : a.key < b.key) : a.seq ≤ b.seq := by
  rcases Prod.Lex.toLex_lt_toLex.mp less with less | ⟨same,_⟩
  · exact Nat.le_of_lt less
  · exact Nat.le_of_eq same

/-- `_MAX_CURSOR_SEQ`, the widest number that a driver takes. -/
def maxCursorSeq : Nat := 2 ^ 63 - 1

/-- The rows of a conversation, as `ORDER BY _MESSAGE_ORDER` lists them. -/
structure Conversation where
  rows : List Message
  ordered : rows.Pairwise fun a b => a.key < b.key
  unique : (rows.map fun message => message.id).Nodup
  bounded : ∀ message ∈ rows, message.seq ≤ maxCursorSeq

theorem Conversation.ext {c d : Conversation} (same : c.rows = d.rows) : c = d := by cases c; cases d; cases same; rfl

instance : DecidableEq Conversation := fun c d =>
  if same : c.rows = d.rows then isTrue (Conversation.ext same) else isFalse fun equal => same (congrArg _ equal)

def Conversation.empty : Conversation := ⟨[],.nil,.nil,nofun⟩

def Conversation.revise (c : Conversation) (change : Message → Message) (keeps : ∀ m, (change m).key = m.key) :
    Conversation where
  rows := c.rows.map change
  ordered := pairwise_map.mpr (c.ordered.imp fun {a b} less => by rw [keeps a,keeps b]; exact less)
  unique := by
    rw [map_map]
    convert c.unique using 2
    funext m
    exact key_id (keeps m)
  bounded := by
    intro m member
    obtain ⟨old,there,rfl⟩ := mem_map.mp member
    have same : (change old).seq = old.seq := congrArg (fun key => (ofLex key).1) (keeps old)
    rw [same]; exact c.bounded old there

def Conversation.cut (c : Conversation) (place : Nat) : Conversation where
  rows := c.rows.take place
  ordered := c.ordered.sublist (take_sublist place c.rows)
  unique := c.unique.sublist ((take_sublist place c.rows).map _)
  bounded := fun m member => c.bounded m (mem_of_mem_take member)

@[simp] theorem revise_rows (c : Conversation) (change : Message → Message) (keeps : ∀ m, (change m).key = m.key) :
    (c.revise change keeps).rows = c.rows.map change := rfl

@[simp] theorem cut_rows (c : Conversation) (place : Nat) : (c.cut place).rows = c.rows.take place := rfl

/-- `_next_seq`: one more than the highest number, which is the last row's. -/
def Conversation.nextSeq (c : Conversation) : Nat :=
  match c.rows.getLast? with
  | none => 0
  | some last => last.seq + 1

def numbered (base : Nat) : List Draft → List Message
  | [] => []
  | draft :: rest => ⟨draft,base⟩ :: numbered (base + 1) rest

theorem numbered_seq {base : Nat} {drafts : List Draft} {m : Message} (member : m ∈ numbered base drafts) :
    base ≤ m.seq ∧ m.seq < base + drafts.length := by
  induction drafts generalizing base with
  | nil => cases member
  | cons draft rest tail => grind only [mem_cons,length_cons,numbered]

theorem numbered_ordered (base : Nat) (drafts : List Draft) :
    (numbered base drafts).Pairwise fun a b => a.key < b.key := by
  induction drafts generalizing base with
  | nil => exact .nil
  | cons draft rest tail =>
    refine .cons ?_ (tail (base + 1))
    intro later member; exact key_lt_of_seq (Nat.lt_of_succ_le (numbered_seq member).1)

@[simp] theorem numbered_draft (base : Nat) (drafts : List Draft) :
    (numbered base drafts).map Message.toDraft = drafts := by
  induction drafts generalizing base with
  | nil => rfl
  | cons draft rest tail => simp [numbered,tail]

theorem numbered_append (base : Nat) (front rest : List Draft) :
    numbered base (front ++ rest) = numbered base front ++ numbered (base + front.length) rest := by
  induction front generalizing base <;> grind [numbered]

theorem numbered_ids (base : Nat) (drafts : List Draft) :
    (numbered base drafts).map (fun message => message.id) = drafts.map Draft.id := by
  rw [← numbered_draft base drafts,map_map,numbered_draft]
  rfl

theorem seq_lt_nextSeq (c : Conversation) {m : Message} (member : m ∈ c.rows) : m.seq < c.nextSeq := by
  unfold Conversation.nextSeq
  obtain ⟨front,last,split⟩ := eq_nil_or_concat c.rows |>.resolve_left (ne_nil_of_mem member)
  rw [concat_eq_append] at split
  have ordered := c.ordered
  rw [split] at member ordered ⊢
  rw [getLast?_concat]
  rcases mem_append.mp member with early | final
  · have less := (pairwise_append.mp ordered).2.2 m early last (mem_singleton.mpr rfl)
    exact Nat.lt_succ_of_le (seq_le_of_key less)
  · rw [mem_singleton.mp final]; exact Nat.lt_succ_self _

def Conversation.Takes (c : Conversation) (drafts : List Draft) : Prop :=
  (c.rows.map (fun message => message.id) ++ drafts.map Draft.id).Nodup ∧ c.nextSeq + drafts.length ≤ maxCursorSeq + 1

instance (c : Conversation) (drafts : List Draft) : Decidable (c.Takes drafts) :=
  inferInstanceAs (Decidable (_ ∧ _))

def Conversation.append (c : Conversation) (drafts : List Draft) : Option Conversation :=
  if takes : c.Takes drafts then
    some
      { rows := c.rows ++ numbered c.nextSeq drafts
        ordered := pairwise_append.mpr ⟨c.ordered,numbered_ordered _ _,fun _ old _ new =>
          key_lt_of_seq (Nat.lt_of_lt_of_le (seq_lt_nextSeq c old) (numbered_seq new).1)⟩
        unique := by rw [map_append,numbered_ids]; exact takes.1
        bounded := by
          intro m member
          rcases mem_append.mp member with old | new
          · exact c.bounded m old
          · have := (numbered_seq new).2
            have := takes.2
            omega }
  else none

theorem append_rows {c d : Conversation} {drafts : List Draft} (taken : c.append drafts = some d) :
    c.Takes drafts ∧ d.rows = c.rows ++ numbered c.nextSeq drafts := by grind only [Conversation.append]

theorem append_key_lt {c : Conversation} {drafts : List Draft} {m n : Message} (old : m ∈ c.rows)
    (new : n ∈ numbered c.nextSeq drafts) : m.key < n.key :=
  key_lt_of_seq (Nat.lt_of_lt_of_le (seq_lt_nextSeq c old) (numbered_seq new).1)

def eventType (event : Fields) : Option Value := event.get "type".toList

/-- The draft slug of a `response.skill_created` event. -/
def skillCreatedSlug (event : Fields) : Option Text :=
  if eventType event = some (.str "response.skill_created".toList) then
    match event.get "skill".toList with
    | some (.obj skill) =>
      match skill.get "slug".toList with
      | some (.str slug) => if slug.isEmpty then none else some slug
      | _ => none
    | _ => none
  else none

def dropCards (slugs : List Text) (events : List Fields) : List Fields :=
  events.filter fun event => !(skillCreatedSlug event).any fun slug => decide (slug ∈ slugs)

theorem dropCards_nil (events : List Fields) : dropCards [] events = events := by
  rw [dropCards,filter_eq_self]
  intro event _
  cases skillCreatedSlug event <;> simp

theorem dropCards_twice (s t : List Text) (events : List Fields) :
    dropCards t (dropCards s events) = dropCards (s ++ t) events := by
  simp only [dropCards,filter_filter]
  refine filter_congr fun event _ => ?_
  cases skillCreatedSlug event <;> simp [Bool.and_comm]

def Message.withoutCards (slugs : List Text) (m : Message) : Message := { m with events := dropCards slugs m.events }

theorem withoutCards_key (slugs : List Text) (m : Message) : (m.withoutCards slugs).key = m.key := rfl

/-- `_supersede_skill_cards`: the cards of some slugs stay at one message only. -/
def Conversation.supersedeSkillCards (c : Conversation) (keep : Nat) (slugs : List Text) : Conversation :=
  c.revise (fun m => if m.id = keep then m else m.withoutCards slugs) (fun m => by split <;> rfl)

/-- `clear_pending`, of one message or of all. -/
def Conversation.clearPending (c : Conversation) (message : Option Nat) : Conversation :=
  c.revise (fun m => if message.all fun id => m.id = id then { m with pending := false } else m)
    (fun m => by split <;> rfl)

def Conversation.saveUserMessage (c : Conversation) (id : Nat) (content : Content) (createdAt : Int) (pending : Bool) :
    Option Conversation :=
  c.append [{ id, role := .user, content, createdAt, harness := none, pending, events := [] }]

structure ToolRow where
  id : Nat
  role : Role
  content : Content

/-- An assistant turn to be saved: the reply's row with its events as stored, and the tool rows ahead of it. -/
structure AssistantTurn where
  id : Nat
  text : Text
  events : List Fields
  harness : Option Text
  toolRows : List ToolRow
  now : Int

def ToolRow.draft (turn : AssistantTurn) (row : ToolRow) : Draft :=
  { id := row.id, role := row.role, content := row.content, createdAt := turn.now, harness := turn.harness,
    pending := false, events := [] }

def AssistantTurn.reply (turn : AssistantTurn) : Draft :=
  { id := turn.id, role := .assistant, content := .text turn.text, createdAt := turn.now, harness := turn.harness,
    pending := false, events := turn.events }

def AssistantTurn.drafts (turn : AssistantTurn) : List Draft := turn.toolRows.map (ToolRow.draft turn) ++ [turn.reply]

def AssistantTurn.isEmpty (turn : AssistantTurn) : Bool :=
  turn.text.isEmpty && turn.events.isEmpty && turn.toolRows.isEmpty

def Conversation.saveAssistantTurn (c : Conversation) (turn : AssistantTurn) : Option Conversation :=
  if turn.isEmpty then some c
  else
    (c.append turn.drafts).map fun saved =>
      let slugs := turn.events.filterMap skillCreatedSlug
      if slugs.isEmpty then saved else saved.supersedeSkillCards turn.id slugs

def Conversation.getOrderedMessages (c : Conversation) (includePending : Bool) : List Message :=
  if includePending then c.rows else c.rows.filter fun m => !m.pending

structure Item where
  id : Nat
  role : Role
  content : Content
  createdAt : Int
  events : List Fields
  harness : Option Text

def Message.item (m : Message) : Item :=
  { id := m.id, role := m.role, content := m.content, createdAt := m.createdAt, events := m.events,
    harness := m.harness.filter fun harness => !harness.isEmpty }

/-- `_hydrate_message_items`: the items of rows, without the hidden tool rows. -/
def hydrateMessageItems (rows : List Message) : List Item := (rows.filter fun m => !m.isToolRow).map Message.item

def Conversation.getMessages (c : Conversation) : List Item := hydrateMessageItems c.rows

end Cowork.Conversations
