import Cowork.JsonText

/-!
The answer's text as every consumer of a turn's events rebuilds it
(`accumulateAnswerText`), and the form the events are stored in (`coalesceTextDeltas`):
each run of adjacent plain text deltas of one item is merged to one delta
(`coalesce_groups`).
-/
namespace Cowork.AnswerText
open JsonText List

inductive EventType where
  | created | inProgress | outputTextDelta | answerReset | answerRestore | artifactCreated | askUser | askUserAnswered
  | turnHistory | skillCreated | memoryRead | figureSources | completed | other (name : Text)
deriving DecidableEq

inductive ResponseStatus where
  | created | inProgress | completed | incomplete

structure ResponseOutput where
  id : Text
  status : ResponseStatus
  content : List Text

/-- The response that `response.created` and `response.completed` carry. -/
structure Response where
  id : Text
  model : Text
  status : ResponseStatus
  incompleteReason : Option Text
  output : List ResponseOutput

structure Payload where
  type : EventType
  sequenceNumber : Option Nat
  itemId : Option Text := none
  delta : Option Value := none
  text : Option Value := none
  atMs : Option Int := none
  response : Option Response := none
  others : List (Text × Value) := []

/-- `data.get(key, "")`. -/
def orEmpty (value : Option Value) : Value := value.getD (.str [])

def accumulateAnswerText (collected : List Value) (type : EventType) (data : Payload) : List Value :=
  match type with
  | .outputTextDelta => collected ++ [orEmpty data.delta]
  | .answerReset => []
  | .answerRestore => orEmpty data.text :: collected
  | _ => collected

/-- `"".join(collected)`, which raises at a value that is no text. -/
def joined : List Value → Option Text
  | [] => some []
  | .str text :: rest => (joined rest).map (text ++ ·)
  | _ :: _ => none

def collect (collected : List Value) (events : List (EventType × Payload)) : List Value :=
  events.foldl (fun texts event => accumulateAnswerText texts event.1 event.2) collected

def answer (events : List (EventType × Payload)) : Option Text := joined (collect [] events)

def announced (events : List Payload) : List (EventType × Payload) := events.map fun event => (event.type,event)

@[simp] theorem joined_str (text : Text) (rest : List Value) :
    joined (.str text :: rest) = (joined rest).map (text ++ ·) := rfl

theorem joined_cons (value : Value) (rest : List Value) :
    joined (value :: rest) = (joined [value]).bind fun front => (joined rest).map (front ++ ·) := by
  cases value <;> simp [joined]

theorem joined_append (front rest : List Value) :
    joined (front ++ rest) = (joined front).bind fun text => (joined rest).map (text ++ ·) := by
  induction front with
  | nil => cases known : joined rest <;> simp [joined,known]
  | cons value front tail =>
    rw [cons_append,joined_cons,tail,joined_cons value front]
    cases joined [value] <;> cases joined front <;> cases joined rest <;> simp

@[simp] theorem collect_nil (collected : List Value) : collect collected [] = collected := rfl

@[simp] theorem collect_cons (collected : List Value) (event : EventType × Payload)
    (rest : List (EventType × Payload)) :
    collect collected (event :: rest) = collect (accumulateAnswerText collected event.1 event.2) rest := rfl

theorem collect_append (collected : List Value) (front rest : List (EventType × Payload)) :
    collect collected (front ++ rest) = collect (collect collected front) rest := by simp [collect]

theorem accumulate_joined {collected others : List Value} (same : joined collected = joined others) (type : EventType)
    (data : Payload) :
    joined (accumulateAnswerText collected type data) = joined (accumulateAnswerText others type data) := by
  cases type with
  | outputTextDelta => simp only [accumulateAnswerText,joined_append,same]
  | answerRestore => simp only [accumulateAnswerText]; rw [joined_cons,same,← joined_cons]
  | answerReset => rfl
  | _ => exact same

theorem collect_joined {collected others : List Value} (same : joined collected = joined others)
    (events : List (EventType × Payload)) : joined (collect collected events) = joined (collect others events) := by
  induction events generalizing collected others with
  | nil => exact same
  | cons event rest tail => exact tail (accumulate_joined same event.1 event.2)

def deltaText (event : Payload) : Text :=
  match event.delta with
  | some (.str text) => text
  | _ => []

def isPlainDelta (event : Payload) : Bool :=
  event.type = .outputTextDelta && event.delta = some (.str (deltaText event)) &&
    (event.text.isNone && event.response.isNone && event.others.isEmpty)

def flush : List Payload → List Payload
  | [] => []
  | [event] => [event]
  | first :: second :: more => [{ first with delta := some (.str ((first :: second :: more).flatMap deltaText)) }]

def coalesceFrom (out run : List Payload) : List Payload → List Payload
  | [] => out ++ flush run
  | event :: rest =>
    if !isPlainDelta event then coalesceFrom (out ++ flush run ++ [event]) [] rest
    else if run.head?.any fun first => first.itemId != event.itemId then coalesceFrom (out ++ flush run) [event] rest
    else coalesceFrom out (run ++ [event]) rest

def coalesceTextDeltas (events : List Payload) : List Payload := coalesceFrom [] [] events

def Plain (run : List Payload) : Prop := ∀ event ∈ run, isPlainDelta event = true

variable {event first : Payload}

theorem plain_type (plain : isPlainDelta event = true) : event.type = .outputTextDelta := by
  simp only [isPlainDelta,Bool.and_eq_true,decide_eq_true_eq] at plain
  exact plain.1.1

theorem plain_delta (plain : isPlainDelta event = true) : event.delta = some (.str (deltaText event)) := by
  simp only [isPlainDelta,Bool.and_eq_true,decide_eq_true_eq] at plain
  exact plain.1.2

theorem collect_plain (run : List Payload) (plain : Plain run) (collected : List Value) :
    joined (collect collected (announced run)) = (joined collected).map (· ++ run.flatMap deltaText) := by
  induction run generalizing collected with
  | nil => cases known : joined collected <;> simp [announced,known]
  | cons event rest tail =>
    have first := plain event mem_cons_self
    have others := tail (fun later member => plain later (mem_cons_of_mem event member))
    simp only [announced,map_cons,collect_cons,plain_type first,accumulateAnswerText] at *
    rw [others,joined_append,plain_delta first]
    cases joined collected <;> simp [orEmpty,joined]

theorem collect_flush (run : List Payload) (plain : Plain run) (collected : List Value) :
    joined (collect collected (announced (flush run))) = joined (collect collected (announced run)) := by
  cases run with
  | nil => rfl
  | cons first later =>
    cases later with
    | nil => rfl
    | cons second more =>
      rw [collect_plain _ plain]
      simp only [flush,announced,map_cons,map_nil,collect_cons,collect_nil,
        plain_type (plain first mem_cons_self),accumulateAnswerText,joined_append]
      cases joined collected <;> simp [orEmpty,joined]

theorem announced_append (front rest : List Payload) :
    announced (front ++ rest) = announced front ++ announced rest := by simp [announced]

/-- Plain deltas of one item. -/
def OfOneItem (run : List Payload) : Prop :=
  Plain run ∧ ∀ first ∈ run, ∀ event ∈ run, event.itemId = first.itemId

/-- What is stored as one event: a run of plain deltas of one item, or one event by itself. -/
def Run (group : List Payload) : Prop := (∃ event, group = [event]) ∨ OfOneItem group

/-- The delta text of one item by letters, with the events that are no text deltas in place. -/
def outline (item : Option Text) (events : List Payload) : List (Char ⊕ Payload) :=
  events.flatMap fun event =>
    if event.type = .outputTextDelta then if event.itemId = item then (deltaText event).map .inl else []
    else [.inr event]

theorem coalesceFrom_out (out run events : List Payload) :
    coalesceFrom out run events = out ++ coalesceFrom [] run events := by
  induction events generalizing out run with
  | nil => simp [coalesceFrom]
  | cons event rest tail =>
    unfold coalesceFrom
    split
    · rw [tail,tail ([] ++ flush run ++ [event])]
      simp
    · split
      · rw [tail,tail ([] ++ flush run)]
        simp
      · exact tail out _

theorem oneItem_nil : OfOneItem [] := ⟨by simp [Plain],by simp⟩

theorem oneItem_single (plain : isPlainDelta event = true) : OfOneItem [event] :=
  ⟨by simpa [Plain] using plain,by simp⟩

theorem oneItem_grows {run : List Payload} (own : OfOneItem run) (plain : isPlainDelta event = true)
    (same : ¬(run.head?.any fun first => first.itemId != event.itemId) = true) : OfOneItem (run ++ [event]) := by
  have item : ∀ known ∈ run ++ [event], isPlainDelta known = true ∧ known.itemId = event.itemId := by
    intro known member
    rcases mem_append.mp member with old | new
    · refine ⟨own.1 known old,?_⟩
      cases run with
      | nil => cases old
      | cons first rest => exact (own.2 first mem_cons_self known old).trans (by simpa using same)
    · rw [mem_singleton.mp new]; exact ⟨plain,rfl⟩
  exact ⟨fun known member => (item known member).1,
    fun first one known other => (item known other).2.trans (item first one).2.symm⟩

theorem coalesce_groups (events run : List Payload) (own : OfOneItem run) :
    ∃ groups : List (List Payload), groups.flatten = run ++ events ∧
      coalesceFrom [] run events = groups.flatMap flush ∧ ∀ group ∈ groups, Run group := by
  induction events generalizing run with
  | nil => exact ⟨[run],by simp,by simp [coalesceFrom],by simpa using .inr own⟩
  | cons event rest tail =>
    unfold coalesceFrom
    split
    · obtain ⟨groups,flat,out,runs⟩ := tail [] oneItem_nil
      refine ⟨run :: [event] :: groups,by simp [flat],?_,forall_mem_cons.mpr ⟨.inr own,?_⟩⟩
      · rw [coalesceFrom_out,out]; simp [flush]
      · exact forall_mem_cons.mpr ⟨.inl ⟨event,rfl⟩,runs⟩
    · rename_i delta
      have plain : isPlainDelta event = true := by simpa using delta
      split
      · obtain ⟨groups,flat,out,runs⟩ := tail [event] (oneItem_single plain)
        refine ⟨run :: groups,by simp [flat],?_,forall_mem_cons.mpr ⟨.inr own,runs⟩⟩
        rw [coalesceFrom_out,out]; simp
      · rename_i same
        obtain ⟨groups,flat,out,runs⟩ := tail (run ++ [event]) (oneItem_grows own plain same)
        exact ⟨groups,by simp [flat],out,runs⟩

theorem outline_plain (item : Option Text) {run : List Payload} (plain : Plain run)
    (same : ∀ event ∈ run, event.itemId = first.itemId) :
    outline item run = if first.itemId = item then (run.flatMap deltaText).map .inl else [] := by
  induction run with
  | nil => simp [outline]
  | cons event rest tail =>
    have later := tail (fun known member => plain known (mem_cons_of_mem event member))
      (fun known member => same known (mem_cons_of_mem event member))
    simp only [outline,flatMap_cons] at later ⊢
    rw [later,if_pos (plain_type (plain event mem_cons_self)),same event mem_cons_self]
    split <;> simp

theorem outline_flush {group : List Payload} (run : Run group) (item : Option Text) :
    outline item (flush group) = outline item group := by
  rcases run with ⟨event,rfl⟩ | ⟨plain,same⟩
  · rfl
  · cases group with
    | nil => rfl
    | cons first rest =>
      cases rest with
      | nil => rfl
      | cons second more =>
        rw [outline_plain item plain (same first mem_cons_self)]
        simp [outline,flush,plain_type (plain first mem_cons_self),deltaText]

/-- What holds of each merged run, and of two parts when of both, holds of all that is stored. -/
theorem coalesced_alike {alike : List Payload → List Payload → Prop} (none : alike [] [])
    (parts : ∀ front one rest other, alike front one → alike rest other → alike (front ++ rest) (one ++ other))
    (runs : ∀ group, Run group → alike (flush group) group) (events : List Payload) :
    alike (coalesceTextDeltas events) events := by
  obtain ⟨groups,flat,out,each⟩ := coalesce_groups events [] oneItem_nil
  rw [coalesceTextDeltas,out,← nil_append events,← flat]
  clear out flat
  induction groups with
  | nil => exact none
  | cons group rest tail =>
    obtain ⟨run,others⟩ := forall_mem_cons.mp each
    exact parts _ _ _ _ (runs group run) (tail others)

theorem answer_coalesced (events : List Payload) :
    answer (announced (coalesceTextDeltas events)) = answer (announced events) := by
  refine @coalesced_alike (fun front one => ∀ collected,
    joined (collect collected (announced front)) = joined (collect collected (announced one))) (fun _ => rfl) ?_ ?_
    events []
  · intro front one rest other first later collected
    rw [announced_append,announced_append,collect_append,collect_append,later,collect_joined (first collected)]
  · rintro group (⟨event,rfl⟩ | own) collected
    · rfl
    · exact collect_flush group own.1 collected

theorem outline_coalesced (events : List Payload) (item : Option Text) :
    outline item (coalesceTextDeltas events) = outline item events := by
  refine @coalesced_alike (fun front one => outline item front = outline item one) rfl ?_ ?_ events
  · intro front one rest other first later
    simp only [outline,flatMap_append] at first later ⊢
    rw [first,later]
  · exact fun group run => outline_flush run item

theorem flush_plain (plain : isPlainDelta first = true) (run : List Payload) :
    ∃ merged, flush (first :: run) = [merged] ∧ isPlainDelta merged = true ∧ merged.itemId = first.itemId := by
  cases run with
  | nil => exact ⟨first,rfl,plain,rfl⟩
  | cons second more =>
    refine ⟨_,rfl,?_,rfl⟩
    simp only [isPlainDelta,Bool.and_eq_true] at plain ⊢
    exact ⟨⟨plain.1.1,by simp [deltaText]⟩,plain.2⟩

/-- What is stored after an open run starts with a plain delta of the run's item. -/
theorem coalesce_head (plain : isPlainDelta first = true) (events run : List Payload) :
    ∃ merged rest, coalesceFrom [] (first :: run) events = merged :: rest ∧ isPlainDelta merged = true ∧
      merged.itemId = first.itemId := by
  induction events generalizing run with
  | nil =>
    obtain ⟨merged,stored,known⟩ := flush_plain plain run
    exact ⟨merged,[],by simp [coalesceFrom,stored],known⟩
  | cons event rest tail =>
    obtain ⟨merged,stored,known⟩ := flush_plain plain run
    unfold coalesceFrom
    split
    · rw [coalesceFrom_out,stored]; exact ⟨merged,_,rfl,known⟩
    · split
      · rw [coalesceFrom_out,stored]; exact ⟨merged,_,rfl,known⟩
      · exact tail (run ++ [event])

/-- An event that is no plain delta separates what is before it from what is after. -/
theorem coalesce_split (other : isPlainDelta event = false) (front run rest : List Payload) :
    coalesceFrom [] run (front ++ event :: rest) = coalesceFrom [] run front ++ event :: coalesceFrom [] [] rest := by
  induction front generalizing run with
  | nil =>
    rw [nil_append,coalesceFrom.eq_2,if_pos (by simp [other]),coalesceFrom_out,coalesceFrom.eq_1]
    simp
  | cons head front tail =>
    rw [cons_append,coalesceFrom,coalesceFrom]
    split
    · rw [coalesceFrom_out,tail,coalesceFrom_out ([] ++ flush run ++ [head]) [] front]
      simp only [append_assoc]
    · split
      · rw [coalesceFrom_out,tail,coalesceFrom_out ([] ++ flush run) [head] front]
        simp only [append_assoc]
      · exact tail (run ++ [head])

theorem coalesce_flush (run : List Payload) : coalesceFrom [] [] (flush run) = flush run := by
  have single : ∀ event, coalesceFrom [] [] [event] = [event] := by
    intro event
    cases delta : isPlainDelta event <;> simp [coalesceFrom,flush]
  cases run with
  | nil => rfl
  | cons first rest => cases rest <;> exact single _

theorem coalesce_opens (plain : isPlainDelta event = true) (rest : List Payload) :
    coalesceFrom [] [] (event :: rest) = coalesceFrom [] [event] rest := by
  rw [coalesceFrom,if_neg (by simp [plain]),if_neg (by simp),nil_append]

-- the induction is on the events still to come; what the open run leaves is never merged with what follows it
theorem coalesce_again (events run : List Payload) (own : OfOneItem run) :
    coalesceFrom [] [] (coalesceFrom [] run events) = coalesceFrom [] run events := by
  induction events generalizing run with
  | nil => exact coalesce_flush run
  | cons event rest tail =>
    rw [coalesceFrom]
    split
    · rename_i delta
      have other : isPlainDelta event = false := by simpa using delta
      rw [coalesceFrom_out ([] ++ flush run ++ [event]),nil_append,append_assoc,singleton_append,coalesce_split other,
        coalesce_flush,tail [] oneItem_nil]
    · rename_i delta
      have plain : isPlainDelta event = true := by simpa using delta
      split
      · rename_i change
        cases run with
        | nil => simp at change
        | cons first more =>
          obtain ⟨merged,stored,whole,item⟩ := flush_plain (own.1 first mem_cons_self) more
          obtain ⟨next,later,follows,nextPlain,nextItem⟩ := coalesce_head plain rest []
          have apart : first.itemId ≠ event.itemId := by simpa using change
          have again := tail [event] (oneItem_single plain)
          rw [follows,coalesce_opens nextPlain] at again
          rw [coalesceFrom_out ([] ++ flush (first :: more)),nil_append,stored,follows,singleton_append,
            coalesce_opens whole,coalesceFrom.eq_2,if_neg (by simp [nextPlain]),
            if_pos (by simp [item,nextItem,apart]),coalesceFrom_out,again]
          rfl
      · rename_i same
        exact tail (run ++ [event]) (oneItem_grows own plain same)

/-- Storing a turn's events merged rebuilds the same answer and keeps, for every item, its text between the events
    that are no text deltas, which stay as they are. Only adjacent plain deltas of one item are merged, and merging
    what is stored once more changes nothing. -/
theorem coalescing_preserves (events : List Payload) :
    answer (announced (coalesceTextDeltas events)) = answer (announced events) ∧
      (∀ item, outline item (coalesceTextDeltas events) = outline item events) ∧
      (∃ groups : List (List Payload), groups.flatten = events ∧
        coalesceTextDeltas events = groups.flatMap flush ∧ ∀ group ∈ groups, Run group) ∧
      coalesceTextDeltas (coalesceTextDeltas events) = coalesceTextDeltas events := by
  refine ⟨answer_coalesced events,outline_coalesced events,?_,coalesce_again events [] oneItem_nil⟩
  exact coalesce_groups events [] oneItem_nil

end Cowork.AnswerText
