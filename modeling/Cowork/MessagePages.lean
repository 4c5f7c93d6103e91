import Cowork.Conversations

/-!
Paging through a conversation from its newest message back. A page is cut on the visible
rows while the query walks the stored ones; the cursor names the last row scanned. What
a page leaves for the next is exactly the rows before that row (`page_spec`).
-/
namespace Cowork.MessagePages
open JsonText List Conversations

def maxPageLimit : Nat := 200

def scanCapMultiplier : Nat := 10

inductive PageError where
  | limitOutOfRange | malformedCursor

structure Page where
  items : List Item
  hasMore : Bool
  nextBefore : Option Cursor

/-- `_decode_message_cursor`, of a cursor that has the shape of one. -/
def decodeMessageCursor (cursor : Cursor) : Option Cursor :=
  if (ofLex cursor).1 ≤ maxCursorSeq ∧ (ofLex (ofLex cursor).2).1 ≤ 1 then some cursor else none

def olderRows (c : Conversation) : Option Cursor → List Message
  | none => c.rows
  | some cursor => c.rows.filter fun m => m.seq ≤ (ofLex cursor).1 && decide (m.key < cursor)

def scan (scanCap limit : Nat) (visible : List Message) (consumed : Nat) : List Message → List Message × Nat
  | [] => (visible,consumed)
  | message :: rest =>
    if scanCap ≤ consumed then (visible,consumed)
    else if message.isToolRow then scan scanCap limit visible (consumed + 1) rest
    else if visible.length + 1 = limit then (visible ++ [message],consumed + 1)
    else scan scanCap limit (visible ++ [message]) (consumed + 1) rest

def pageOf (older : List Message) (limit : Nat) : Page :=
  let scanCap := limit * scanCapMultiplier
  let rawRows := older.reverse.take (scanCap + 1)
  let (visible,consumed) := scan scanCap limit [] 0 rawRows
  let hasMore :=
    if visible.length = limit then decide (consumed < rawRows.length) else decide (scanCap < rawRows.length)
  { items := hydrateMessageItems visible.reverse
    hasMore := hasMore
    nextBefore := if hasMore && consumed ≠ 0 then rawRows[consumed - 1]?.map Message.key else none }

def getMessagesPage (c : Conversation) (limit : Nat) (before : Option Cursor) : Except PageError Page :=
  if 1 ≤ limit ∧ limit ≤ maxPageLimit then
    match before with
    | none => .ok (pageOf (olderRows c none) limit)
    | some text =>
      match decodeMessageCursor text with
      | none => .error .malformedCursor
      | some cursor => .ok (pageOf (olderRows c (some cursor)) limit)
  else .error .limitOutOfRange

def visibleRows (rows : List Message) : List Message := rows.filter fun m => !m.isToolRow

/-- A scan stops at the limit, at the cap or after the last row, having consumed visible and all rows. -/
structure Stops (scanCap limit : Nat) (visible : List Message) (consumed : Nat) (rows : List Message) (k : Nat) :
    Prop where
  taken : k ≤ rows.length
  cap : consumed + k ≤ scanCap
  here : (visible ++ visibleRows (rows.take k)).length = limit ∧ 0 < k ∨
    (visible ++ visibleRows (rows.take k)).length < limit ∧ (k = rows.length ∨ consumed + k = scanCap)

theorem visible_next (visible : List Message) (message : Message) (rest : List Message) (k : Nat) :
    visible ++ visibleRows ((message :: rest).take (k + 1)) =
      (visible ++ visibleRows [message]) ++ visibleRows (rest.take k) := by
  simp [visibleRows,filter_cons]
  split <;> rfl

theorem Stops.next {scanCap limit : Nat} {visible : List Message} {consumed : Nat} {message : Message}
    {rest : List Message} {k : Nat}
    (stops : Stops scanCap limit (visible ++ visibleRows [message]) (consumed + 1) rest k) :
    Stops scanCap limit visible consumed (message :: rest) (k + 1) := by
  obtain ⟨taken,cap,here⟩ := stops
  refine ⟨by simpa using taken,by omega,?_⟩
  grind [visible_next]

theorem scan_spec (scanCap limit : Nat) (rows visible : List Message) (consumed : Nat)
    (room : visible.length < limit) (within : consumed ≤ scanCap) :
    ∃ k, scan scanCap limit visible consumed rows = (visible ++ visibleRows (rows.take k),consumed + k) ∧
      Stops scanCap limit visible consumed rows k := by
  induction rows generalizing visible consumed with
  | nil => exact ⟨0,by simp [scan,visibleRows],by simp,within,.inr ⟨by simpa [visibleRows] using room,.inl rfl⟩⟩
  | cons message rest tail =>
    have onward (room : (visible ++ visibleRows [message]).length < limit) (within : consumed + 1 ≤ scanCap) :
        ∃ k, scan scanCap limit (visible ++ visibleRows [message]) (consumed + 1) rest =
            (visible ++ visibleRows ((message :: rest).take k),consumed + k) ∧
          Stops scanCap limit visible consumed (message :: rest) k := by
      obtain ⟨k,result,stops⟩ := tail _ _ room within
      exact ⟨k + 1,by rw [result,visible_next,Nat.add_assoc,Nat.add_comm 1],stops.next⟩
    unfold scan
    by_cases full : scanCap ≤ consumed
    · rw [if_pos full]
      exact ⟨0,by simp [visibleRows],Nat.zero_le _,within,.inr ⟨by simpa [visibleRows] using room,.inr (by omega)⟩⟩
    · rw [if_neg full]
      by_cases tool : message.isToolRow = true
      · grind only [visibleRows,filter_cons,filter_nil]
      · rw [if_neg tool]
        have shown : visibleRows [message] = [message] := by simp [visibleRows,tool]
        rw [shown] at onward
        by_cases whole : visible.length + 1 = limit
        · rw [if_pos whole]
          refine ⟨1,by simp [shown],by simp,by omega,.inl ⟨?_,Nat.one_pos⟩⟩
          simp [shown,whole]
        · rw [if_neg whole]
          exact onward (by simp only [length_append,length_singleton]; omega) (by omega)

/-- A page holds the visible ones of the rows it consumes. It says that there is more exactly if rows are left before
    those, and then its cursor is the oldest row that it consumed. -/
theorem page_spec (older : List Message) (limit : Nat) (positive : 1 ≤ limit) :
    ∃ n ≤ older.length, (pageOf older limit).items = hydrateMessageItems (older.drop n) ∧
      (pageOf older limit).items.length ≤ limit ∧
      ((pageOf older limit).hasMore = false ∧ n = 0 ∧ (pageOf older limit).nextBefore = none ∨
        (pageOf older limit).hasMore = true ∧ 0 < n ∧
          ∃ row, older[n]? = some row ∧ (pageOf older limit).nextBefore = some row.key) := by
  unfold pageOf
  extract_lets scanCap rawRows
  obtain ⟨k,result,taken,cap,here⟩ := scan_spec scanCap limit rawRows [] 0 positive (Nat.zero_le _)
  rw [result]
  simp only [nil_append,Nat.zero_add] at cap here ⊢
  have positiveCap : 0 < scanCap := Nat.mul_pos positive (by decide)
  have rawLength : rawRows.length = min (scanCap + 1) older.length := by simp [rawRows]
  have consumed : rawRows.take k = older.reverse.take k := by
    simp only [rawRows,take_take]
    rw [Nat.min_eq_left (by omega)]
  have most : (older.reverse.take k).reverse = older.drop (older.length - k) := by
    rw [reverse_take,reverse_reverse,length_reverse]
  have more : (if (visibleRows (rawRows.take k)).length = limit then decide (k < rawRows.length)
      else decide (scanCap < rawRows.length)) = decide (k < older.length) := by
    rcases here with ⟨whole,_⟩ | ⟨less,stop⟩
    · rw [if_pos whole]
      simp only [decide_eq_decide]
      omega
    · rw [if_neg (Nat.ne_of_lt less)]
      simp only [decide_eq_decide]
      omega
  have items : hydrateMessageItems (visibleRows (rawRows.take k)).reverse =
      hydrateMessageItems (older.drop (older.length - k)) := by
    rw [← most,← consumed]; simp [hydrateMessageItems,visibleRows]
  refine ⟨older.length - k,Nat.sub_le _ _,?_,?_,?_⟩
  · exact items
  · grind [hydrateMessageItems]
  · simp only [more]
    by_cases left : k < older.length
    · grind
    · exact .inl ⟨by simpa using left,by omega,by simp [left]⟩

inductive Append where
  | question (id : Nat) (content : Content) (createdAt : Int) (pending : Bool)
  | answer (turn : AssistantTurn)

def Append.apply (c : Conversation) : Append → Conversation
  | .question id content createdAt pending => (c.saveUserMessage id content createdAt pending).getD c
  | .answer turn => (c.saveAssistantTurn turn).getD c

/-- The cards that an append to `c` takes from earlier messages; one that is refused takes none. -/
def Append.superseded (c : Conversation) : Append → List Text
  | .question .. => []
  | .answer turn =>
    if turn.isEmpty || (c.append turn.drafts).isNone then [] else turn.events.filterMap skillCreatedSlug

def supersededBy (c : Conversation) : List Append → List Text
  | [] => []
  | action :: rest => action.superseded c ++ supersededBy (action.apply c) rest

theorem withoutCards_nil (m : Message) : m.withoutCards [] = m := by simp only [Message.withoutCards,dropCards_nil]

theorem withoutCards_twice (s t : List Text) (m : Message) :
    (m.withoutCards s).withoutCards t = m.withoutCards (s ++ t) := by simp only [Message.withoutCards,dropCards_twice]

def Grown (c : Conversation) (gone : List Text) (d : Conversation) : Prop :=
  ∃ more, d.rows = c.rows.map (Message.withoutCards gone) ++ more ∧ ∀ m ∈ c.rows, ∀ n ∈ more, m.key < n.key

theorem grown_refl (c : Conversation) : Grown c [] c := by
  have same : Message.withoutCards [] = id := funext withoutCards_nil
  refine ⟨[],by simp [same],?_⟩
  intro m _ n new
  cases new

variable {c d : Conversation} {gone : List Text} {n : Nat}

theorem Grown.append {e : Conversation} (grown : Grown c gone d) {drafts : List Draft}
    (taken : d.append drafts = some e) : Grown c gone e := by
  obtain ⟨more,rows,newer⟩ := grown
  refine ⟨more ++ numbered d.nextSeq drafts,?_,?_⟩
  all_goals grind only [mem_append,mem_map_of_mem,append_key_lt,withoutCards_key,Conversation.append]

theorem Grown.supersede (grown : Grown c gone d) {keep : Nat} (new : ∀ m ∈ c.rows, m.id ≠ keep) (slugs : List Text) :
    Grown c (gone ++ slugs) (d.supersedeSkillCards keep slugs) := by
  have old : (c.rows.map (Message.withoutCards gone)).map
      (fun m => if m.id = keep then m else m.withoutCards slugs) =
        c.rows.map (Message.withoutCards (gone ++ slugs)) := by
    rw [map_map]
    apply map_congr_left
    intro m member
    have other : (m.withoutCards gone).id ≠ keep := new m member
    rw [Function.comp_apply,if_neg other,withoutCards_twice]
  grind only [Conversation.supersedeSkillCards,revise_rows,map_append,mem_map,Grown]

theorem Grown.apply (grown : Grown c gone d) (action : Append) :
    Grown c (gone ++ action.superseded d) (action.apply d) := by
  cases action with
  | question id content createdAt pending =>
    simp only [Append.apply,Append.superseded,append_nil,Conversation.saveUserMessage]
    cases taken : d.append _ with
    | none => exact grown
    | some saved => exact grown.append taken
  | answer turn =>
    simp only [Append.apply,Append.superseded,Conversation.saveAssistantTurn]
    by_cases empty : turn.isEmpty = true
    · simpa [empty] using grown
    · cases taken : d.append turn.drafts with
      | none => simpa [empty] using grown
      | some saved =>
        simp only [empty,Option.isNone_some,Bool.or_false,Bool.false_eq_true,if_false]
        split
        · rename_i none
          rw [isEmpty_iff.mp none,append_nil]; exact grown.append taken
        · refine (grown.append taken).supersede (fun m member same => ?_) _
          obtain ⟨more,rows,_⟩ := grown
          have fresh := (nodup_append.mp (append_rows taken).1.1).2.2
          refine fresh m.id ?_ turn.id ?_ same
          · rw [rows,map_append,map_map]; exact mem_append_left _ (mem_map_of_mem member)
          · simp [AssistantTurn.drafts,AssistantTurn.reply]

theorem Grown.applyAll (grown : Grown c gone d) (actions : List Append) :
    Grown c (gone ++ supersededBy d actions) (actions.foldl Append.apply d) := by
  induction actions generalizing d gone with
  | nil => simpa [supersededBy] using grown
  | cons action rest tail => rw [supersededBy,← append_assoc]; exact tail (grown.apply action)

theorem filter_below {front rest : List Message} {row : Message}
    (ordered : (front ++ row :: rest).Pairwise fun a b => a.key < b.key) :
    ((front ++ row :: rest).filter fun m => m.seq ≤ (ofLex row.key).1 && decide (m.key < row.key)) = front := by
  obtain ⟨_,later,across⟩ := pairwise_append.mp ordered
  rw [filter_append,filter_eq_self.mpr,filter_eq_nil_iff.mpr,append_nil]
  · grind only [mem_cons,pairwise_cons]
  · intro m member
    have below := across m member row mem_cons_self
    simp only [Bool.and_eq_true,decide_eq_true_eq]
    exact ⟨seq_le_of_key below,below⟩

theorem olderRows_grown (grown : Grown c gone d) {row : Message} (there : c.rows[n]? = some row) :
    olderRows d (some row.key) = (c.rows.take n).map (Message.withoutCards gone) := by
  obtain ⟨more,rows,newer⟩ := grown
  obtain ⟨bound,found⟩ := List.getElem?_eq_some_iff.mp there
  have split : c.rows = c.rows.take n ++ row :: c.rows.drop (n + 1) := by
    rw [← found,← drop_eq_getElem_cons bound,take_append_drop]
  have placed : d.rows = (c.rows.take n).map (Message.withoutCards gone) ++
      row.withoutCards gone :: ((c.rows.drop (n + 1)).map (Message.withoutCards gone) ++ more) := by
    conv_lhs => rw [rows,split]
    simp
  have ordered := d.ordered
  rw [placed] at ordered
  rw [olderRows,placed]
  exact filter_below ordered

structure Round where
  limit : Nat
  appends : List Append

/-- A client that pages: what it has read, its cursor, and whether a page said that there is no more. -/
structure Client where
  store : Conversation
  before : Option Cursor := none
  pages : List Page := []
  finished : Bool := false

def Client.next (client : Client) (round : Round) : Client :=
  if client.finished then client
  else
    match getMessagesPage client.store round.limit client.before with
    | .ok page =>
      { store := round.appends.foldl Append.apply client.store, before := page.nextBefore,
        pages := client.pages ++ [page], finished := !page.hasMore }
    | .error _ => client

def follow (c : Conversation) (rounds : Nat → Round) : Nat → Client
  | 0 => { store := c }
  | n + 1 => (follow c rounds n).next (rounds n)

/-- The cards that were superseded between the first request and request `n`. -/
def supersededBefore (c : Conversation) (rounds : Nat → Round) : Nat → List Text
  | 0 => []
  | n + 1 => supersededBefore c rounds n ++ supersededBy (follow c rounds n).store (rounds n).appends

def withoutItemCards (slugs : List Text) (item : Item) : Item :=
  { item with events := dropCards slugs item.events }

/-- The pages show these runs of items, each without the cards that were superseded before its request. -/
def Shows (c : Conversation) (rounds : Nat → Round) (runs : List (List Item)) (pages : List Page) : Prop :=
  pages.map Page.items = runs.mapIdx fun k run => run.map (withoutItemCards (supersededBefore c rounds k))

theorem hydrate_withoutCards (gone : List Text) (rows : List Message) :
    hydrateMessageItems (rows.map (Message.withoutCards gone)) =
      (hydrateMessageItems rows).map (withoutItemCards gone) := by
  simp only [hydrateMessageItems,filter_map,map_map]
  rfl

theorem hydrate_append (front rest : List Message) :
    hydrateMessageItems (front ++ rest) = hydrateMessageItems front ++ hydrateMessageItems rest := by
  simp [hydrateMessageItems]

/-- After `n` requests: `n` pages within their limits, of which all but a last one say that there is more and from
    where, showing the rows from `left` on. -/
structure Read (c : Conversation) (rounds : Nat → Round) (n : Nat) (client : Client) (left : Nat) : Prop where
  count : client.pages.length = n
  limits : ∀ k page, client.pages[k]? = some page → page.items.length ≤ (rounds k).limit
  cursors : ∀ page ∈ client.pages, page.hasMore = page.nextBefore.isSome
  more : ∀ k page, client.pages[k]? = some page → (page.hasMore = true ↔ k + 1 < n ∨ client.finished = false)
  shown : ∃ runs, runs.reverse.flatten = hydrateMessageItems (c.rows.drop left) ∧ Shows c rounds runs client.pages

/-- What the next request of an unfinished client walks: the rows before `left`, fewer with every request. -/
structure Going (c : Conversation) (rounds : Nat → Round) (n : Nat) (client : Client) (left : Nat) : Prop where
  going : client.finished = false
  fewer : left + n ≤ c.rows.length
  cursor : ∀ cursor, client.before = some cursor → decodeMessageCursor cursor = some cursor
  grown : Grown c (supersededBefore c rounds n) client.store
  walks : olderRows client.store client.before =
    (c.rows.take left).map (Message.withoutCards (supersededBefore c rounds n))

theorem decode_key {m : Message} (member : m ∈ c.rows) : decodeMessageCursor m.key = some m.key := by
  have rank : m.role.rank ≤ 1 := by unfold Role.rank; split <;> omega
  exact if_pos ⟨c.bounded m member,rank⟩

theorem getMessagesPage_ok {limit : Nat} (valid : 1 ≤ limit ∧ limit ≤ maxPageLimit) {before : Option Cursor}
    (cursor : ∀ cursor, before = some cursor → decodeMessageCursor cursor = some cursor) :
    getMessagesPage c limit before = .ok (pageOf (olderRows c before) limit) := by
  unfold getMessagesPage
  rw [if_pos valid]
  cases before with
  | none => rfl
  | some text => simp only [cursor text rfl]

theorem Read.next {rounds : Nat → Round} {client : Client} {left left' : Nat} {page : Page}
    (read : Read c rounds n client left) (going : client.finished = false)
    (limit : page.items.length ≤ (rounds n).limit) (cursor : page.hasMore = page.nextBefore.isSome)
    (shown : page.items = (hydrateMessageItems ((c.rows.take left).drop left')).map
      (withoutItemCards (supersededBefore c rounds n)))
    (inside : left' ≤ left) (within : left ≤ c.rows.length) (store : Conversation) :
    Read c rounds (n + 1) ⟨store,page.nextBefore,client.pages ++ [page],!page.hasMore⟩ left' := by
  have place {k : Nat} {p : Page} (there : (client.pages ++ [page])[k]? = some p) :
      client.pages[k]? = some p ∧ k < n ∨ p = page ∧ k = n := by
    by_cases early : k < client.pages.length
    · rw [List.getElem?_append_left early] at there
      exact .inl ⟨there,by rw [← read.count]; exact early⟩
    · grind only [List.getElem?_append_right,List.getElem?_singleton,read.count]
  constructor
  · simp [read.count]
  · intro k p there
    rcases place there with ⟨old,_⟩ | ⟨rfl,rfl⟩
    · exact read.limits k p old
    · exact limit
  · grind only [mem_append,read.cursors,mem_singleton]
  · grind only [cases Read]
  · have rows : c.rows.drop left' = (c.rows.take left).drop left' ++ c.rows.drop left := by
      rw [← drop_append_of_le_length,take_append_drop]
      rw [length_take]; omega
    obtain ⟨runs,whole,same⟩ := read.shown
    have count : runs.length = n := by
      have length := congrArg length same
      rw [length_map,length_mapIdx,read.count] at length
      exact length.symm
    refine ⟨runs ++ [hydrateMessageItems ((c.rows.take left).drop left')],?_,?_⟩
    · rw [rows,hydrate_append,reverse_append,reverse_singleton,singleton_append,flatten_cons,whole]
    · unfold Shows at same ⊢
      rw [map_append,same,mapIdx_append]; simp [count,shown]

theorem next_reads {rounds : Nat → Round} {client : Client} {left : Nat}
    (valid : 1 ≤ (rounds n).limit ∧ (rounds n).limit ≤ maxPageLimit) (read : Read c rounds n client left)
    (going : Going c rounds n client left) (here : (follow c rounds n) = client) :
    ∃ left', Read c rounds (n + 1) (client.next (rounds n)) left' ∧ ((client.next (rounds n)).finished = true ∧
      left' = 0 ∨ Going c rounds (n + 1) (client.next (rounds n)) left') := by
  have walks := going.walks
  have answered := getMessagesPage_ok (c := client.store) valid going.cursor
  obtain ⟨left',bound,items,limit,ends⟩ := page_spec (olderRows client.store client.before) (rounds n).limit valid.1
  generalize pageOf (olderRows client.store client.before) (rounds n).limit = page at *
  have next : client.next (rounds n) =
      ⟨(rounds n).appends.foldl Append.apply client.store,page.nextBefore,client.pages ++ [page],!page.hasMore⟩ := by
    simp [Client.next,going.going,answered]
  rw [walks] at bound items ends
  have fewer := going.fewer
  have inside : left' ≤ left := by
    rw [length_map,length_take] at bound
    omega
  have cursor : page.hasMore = page.nextBefore.isSome := by
    rcases ends with ⟨final,_,none⟩ | ⟨more,_,row,_,some⟩
    · rw [final,none]; rfl
    · rw [more,some]; rfl
  have shown : page.items = (hydrateMessageItems ((c.rows.take left).drop left')).map
      (withoutItemCards (supersededBefore c rounds n)) := by
    rw [items,← map_drop,hydrate_withoutCards]
  rw [next]
  refine ⟨left',read.next going.going limit cursor shown inside (by omega) _,?_⟩
  rcases ends with ⟨final,rfl,_⟩ | ⟨more,_,row,there,before⟩
  · exact .inl ⟨by simp [final],rfl⟩
  · have later : Grown c (supersededBefore c rounds (n + 1)) ((rounds n).appends.foldl Append.apply client.store) :=
      here ▸ going.grown.applyAll (rounds n).appends
    -- the row that the cursor names is a row of the first request
    obtain ⟨original,found,rfl⟩ : ∃ original, (c.rows.take left)[left']? = some original ∧
        original.withoutCards (supersededBefore c rounds n) = row := by
      rw [List.getElem?_map] at there
      exact Option.map_eq_some_iff.mp there
    obtain ⟨less,_⟩ := List.getElem?_eq_some_iff.mp found
    rw [length_take] at less
    rw [List.getElem?_take_of_lt (by omega)] at found
    have member : original ∈ c.rows := mem_of_getElem? found
    refine .inr ⟨by simp [more],by omega,?_,later,?_⟩
    all_goals grind only [withoutCards_key,decode_key,olderRows_grown]

theorem follow_reads (c : Conversation) (rounds : Nat → Round)
    (valid : ∀ n, 1 ≤ (rounds n).limit ∧ (rounds n).limit ≤ maxPageLimit) (n : Nat) :
    (∃ k, Read c rounds k (follow c rounds k) 0 ∧ (follow c rounds k).finished = true) ∨
      ∃ left, Read c rounds n (follow c rounds n) left ∧ Going c rounds n (follow c rounds n) left := by
  induction n with
  | zero =>
    refine .inr ⟨c.rows.length,?_,?_⟩
    · exact ⟨rfl,nofun,nofun,nofun,[],by simp [hydrateMessageItems],rfl⟩
    · refine ⟨rfl,Nat.le_refl _,nofun,grown_refl c,?_⟩
      have same : Message.withoutCards [] = id := funext withoutCards_nil
      simp [follow,olderRows,supersededBefore,same]
  | succ n before => grind only [next_reads,follow]

theorem supersededBefore_grows (c : Conversation) (rounds : Nat → Round) {k n : Nat} (le : k ≤ n) :
    supersededBefore c rounds k <+: supersededBefore c rounds n := by
  induction n,le using Nat.le_induction with
  | base => exact prefix_rfl
  | succ n _ ih => exact ih.trans (prefix_append _ _)

theorem Shows.unchanged {rounds : Nat → Round} {runs : List (List Item)} {pages : List Page}
    (shows : Shows c rounds runs pages) (quiet : supersededBefore c rounds pages.length = []) :
    pages.reverse.flatMap Page.items = runs.reverse.flatten := by
  have count : runs.length = pages.length := by
    have length := congrArg length shows
    simpa using length.symm
  have same : pages.map Page.items = runs := by
    refine (shows : _ = _).trans (List.ext_getElem (by simp) fun k _ there => ?_)
    have none : supersededBefore c rounds k = [] :=
      prefix_nil.mp (quiet ▸ supersededBefore_grows c rounds (by omega))
    have id_ : withoutItemCards [] = id := by
      funext item
      simp only [withoutItemCards,dropCards_nil,id]
    simp [none,id_]
  rw [flatMap_def,map_reverse,same]

/-- Following the cursors from none ends, pages keep to their limits, and together they show the items of the first
    request once and in order, each page without the cards superseded before its request and otherwise unchanged. -/
theorem pages_are_complete (c : Conversation) (rounds : Nat → Round)
    (valid : ∀ n, 1 ≤ (rounds n).limit ∧ (rounds n).limit ≤ maxPageLimit) :
    ∃ n, (follow c rounds n).finished = true ∧ (follow c rounds n).pages.length = n ∧
      (∀ k page, (follow c rounds n).pages[k]? = some page → page.items.length ≤ (rounds k).limit ∧
        page.hasMore = page.nextBefore.isSome ∧ (page.hasMore = true ↔ k + 1 < n)) ∧
      (∃ runs, runs.reverse.flatten = c.getMessages ∧ Shows c rounds runs (follow c rounds n).pages) ∧
      (supersededBefore c rounds n = [] → (follow c rounds n).pages.reverse.flatMap Page.items = c.getMessages) := by
  rcases follow_reads c rounds valid (c.rows.length + 1) with ⟨n,read,final⟩ | ⟨left,_,going⟩
  · obtain ⟨runs,whole,shows⟩ := read.shown
    refine ⟨n,final,read.count,?_,⟨runs,whole,shows⟩,?_⟩
    · intro k page there
      refine ⟨read.limits k page there,read.cursors page (mem_of_getElem? there),?_⟩
      simpa [final] using read.more k page there
    · exact fun quiet => (shows.unchanged (read.count.symm ▸ quiet)).trans whole
  · have := going.fewer
    omega

/-- A `response.skill_created` event of the slug `plan`. -/
def planCard : Fields :=
  .cons "type".toList (.str "response.skill_created".toList)
    (.cons "skill".toList (.obj (.cons "slug".toList (.str "plan".toList) .nil)) .nil)

def planTurn (id : Nat) : AssistantTurn := ⟨id,"done".toList,[planCard],none,[],0⟩

def planTalk : Conversation :=
  [.question 1 (.text "plan".toList) 0 false,.answer (planTurn 2),.question 3 (.text "again".toList) 1 false].foldl
    Append.apply .empty

/-- Pages of one item; the answer to the second question, which shows the card anew, is saved after the first page. -/
def planRounds (n : Nat) : Round := ⟨1,if n = 0 then [.answer (planTurn 4)] else []⟩

theorem planTalk_is_read :
    (∀ n, 1 ≤ (planRounds n).limit ∧ (planRounds n).limit ≤ maxPageLimit) ∧
      ∃ n, (follow planTalk planRounds n).finished = true := by
  have valid (n : Nat) : 1 ≤ (planRounds n).limit ∧ (planRounds n).limit ≤ maxPageLimit := by
    simp [planRounds,maxPageLimit]
  obtain ⟨n,final,_⟩ := pages_are_complete planTalk planRounds valid
  exact ⟨valid,n,final⟩

/-- The pages show the first answer without the card that it had at the first request. -/
theorem superseded_card_is_missing :
    (follow planTalk planRounds 3).finished = true ∧ (planTalk.getMessages.map Item.events) = [[],[planCard],[]] ∧
      ((follow planTalk planRounds 3).pages.reverse.flatMap Page.items).map Item.events = [[],[],[]] := by
  decide +kernel

end Cowork.MessagePages
