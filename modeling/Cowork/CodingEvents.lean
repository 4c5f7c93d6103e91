import Cowork.JsonText

/-!
The events of a coding session and the JSON line that each is stored as. An event is
bounded and redacted when it is built (`construct`) and again when its line is read, so
that a line gives back the event as the validators leave it (`load_dump`).
-/
namespace Cowork.CodingEvents
open JsonText

/-! ## Patterns

The regular expressions of the redaction, matched as Python does: the first way to
match wins, repetitions take as much as they can, and a later failure makes an
earlier choice try its next way. -/

inductive Pattern where
  | empty
  | one (holds : Char → Bool)
  | seq (first second : Pattern)
  | alt (first second : Pattern)
  | star (body : Pattern)

section
variable {β : Type}

/-- As many turns as go on to a match, but at most `n`, each taking some text. -/
def many (body : List Char → (List Char → Option β) → Option β) :
    Nat → List Char → (List Char → Option β) → Option β
  | 0,cs,next => next cs
  | n+1,cs,next =>
    (body cs fun rest => if rest.length < cs.length then many body n rest next else none).orElse fun _ => next cs

def Pattern.run : Pattern → List Char → (List Char → Option β) → Option β
  | .empty,cs,next => next cs
  | .one _,[],_ => none
  | .one holds,c :: rest,next => if holds c then next rest else none
  | .seq first second,cs,next => first.run cs fun rest => second.run rest next
  | .alt first second,cs,next => (first.run cs next).orElse fun _ => second.run cs next
  | .star body,cs,next => many body.run cs.length cs next

end

def Pattern.opt (pattern : Pattern) : Pattern := .alt pattern .empty
def Pattern.plus (pattern : Pattern) : Pattern := .seq pattern (.star pattern)
def sequence (patterns : List Pattern) : Pattern := patterns.foldr .seq .empty
def oneOf : List Pattern → Pattern
  | [] => .one fun _ => false
  | [pattern] => pattern
  | pattern :: more => .alt pattern (oneOf more)

/-- The letter a character counts as when case is ignored; four letters outside ASCII count as one of it. -/
def fold (c : Char) : Char :=
  if c = '\u0130' || c = '\u0131' then 'i'
  else if c = '\u017f' then 's'
  else if c = '\u212a' then 'k'
  else c.toLower

def word (text : String) : Pattern := sequence (text.toList.map fun letter => .one fun c => fold c = letter)

/-- `\s`. -/
def space (c : Char) : Bool :=
  c ∈ [' ','\t','\n','\r','\x0b','\x0c','\x1c','\x1d','\x1e','\x1f','\u0085','\u00a0','\u1680','\u2028','\u2029',
    '\u202f','\u205f','\u3000'] || decide ('\u2000' ≤ c) && decide (c ≤ '\u200a')

def sensitiveKeyWords : Pattern :=
  oneOf [word "authorization",sequence [word "api",Pattern.opt (.one (· ≠ '\n')),word "key"],word "token",word "password",
    word "secret",word "credential",word "cookie"]

/-- The names that `_SENSITIVE_TEXT` looks for. -/
def sensitiveNames : Pattern :=
  let dash := Pattern.opt (.one fun c => c = '_' || c = '-')
  oneOf [word "authorization",sequence [word "api",dash,word "key"],
    sequence [Pattern.opt (sequence [word "access",dash]),word "token"],word "password",word "secret",word "cookie"]

/-- The first group of `_SENSITIVE_TEXT`. -/
def sensitiveText : Pattern :=
  sequence [sensitiveNames,.star (.one space),.one fun c => c = ':' || c = '=',.star (.one space),
    Pattern.opt (sequence [word "bearer",Pattern.plus (.one space)])]

/-- The second group of `_SENSITIVE_TEXT`. -/
def sensitiveValue : Pattern := Pattern.plus (.one fun c => !(space c || c = ',' || c = ';' || c = '&'))

def unescaped : Pattern := .one fun c => c ≠ '"' && c ≠ '\\'

/-- The first group of `_SENSITIVE_JSON_TEXT`. -/
def sensitiveJsonText : Pattern :=
  sequence [.one (· = '"'),.star unescaped,sensitiveKeyWords,.star unescaped,.one (· = '"'),.star (.one space),
    .one (· = ':'),.star (.one space),.one (· = '"')]

/-- What `_SENSITIVE_JSON_TEXT` replaces. -/
def sensitiveJsonValue : Pattern := .star (.alt unescaped (.seq (.one (· = '\\')) (.one (· ≠ '\n'))))

def match3 (first second third : Pattern) (cs : List Char) : Option (List Char × List Char × List Char) :=
  first.run cs fun a => second.run a fun b => third.run b fun c => some (a,b,c)

def upTo (cs rest : List Char) : List Char := cs.take (cs.length - rest.length)

def REDACTED : List Char := "[redacted]".toList

/-- `pattern.sub`: the middle part of every match is replaced. -/
def redactMatches (first second third : Pattern) : Nat → List Char → List Char
  | 0,cs => cs
  | _+1,[] => []
  | n+1,c :: rest =>
    match match3 first second third (c :: rest) with
    | some (a,b,after) => upTo (c :: rest) a ++ REDACTED ++ upTo b after ++ redactMatches first second third n after
    | none => c :: redactMatches first second third n rest

def MAX_REDACTION_INPUT_CHARS : Nat := 256 * 1024

/-- `redact_text(value)`. -/
def redactText (value : List Char) : List Char :=
  let safe := value.take MAX_REDACTION_INPUT_CHARS
  let safe := redactMatches sensitiveJsonText sensitiveJsonValue (.one (· = '"')) safe.length safe
  redactMatches sensitiveText sensitiveValue .empty safe.length safe

/-- `_SENSITIVE_KEY.search(key)`. -/
def sensitiveKey : List Char → Bool
  | [] => (sensitiveKeyWords.run [] some).isSome
  | c :: rest => (sensitiveKeyWords.run (c :: rest) some).isSome || sensitiveKey rest

def MAX_SANITIZED_CHARS : Int := 128 * 1024

/-- `text[:index]`; a negative index counts from the end. -/
def upToIndex (index : Int) (text : List Char) : List Char :=
  if 0 ≤ index then text.take index.toNat else text.take (text.length - (-index).toNat)

def charged (depth : Nat) (budget : Int) (bounded : Int → Value × Int) : Value × Int :=
  if budget ≤ 0 then (.str "[truncated]".toList,budget)
  else if 5 < depth then (.str "[truncated]".toList,budget - 16)
  else bounded (budget - 16)

mutual
/-- `_sanitize(value, depth, budget)`: the bounded value and the budget that is left. -/
def sanitizeValue (depth : Nat) (budget : Int) : Value → Value × Int
  | .obj fields => charged depth budget fun left =>
    (.obj (sanitizeFields (depth+1) 100 left .nil fields).1,(sanitizeFields (depth+1) 100 left .nil fields).2)
  | .arr items => charged depth budget fun left =>
    (.arr (sanitizeItems (depth+1) 100 left items).1,(sanitizeItems (depth+1) 100 left items).2)
  | .str text => charged depth budget fun left =>
    let safe := upToIndex (min 8192 left) (redactText text)
    (.str safe,left - safe.length)
  | .num number => charged depth budget fun left => (.num number,left - 8)
  | .bool b => charged depth budget fun left => (.bool b,left - 8)
  | .null => charged depth budget fun left => (.null,left - 8)
def sanitizeItems (depth : Nat) (most : Nat) (budget : Int) : Items → Items × Int
  | .nil => (.nil,budget)
  | .cons head tail =>
    if most = 0 ∨ budget ≤ 0 then (.nil,budget)
    else
      let (item,left) := sanitizeValue depth budget head
      let (others,last) := sanitizeItems depth (most - 1) left tail
      (.cons item others,last)
def sanitizeFields (depth : Nat) (most : Nat) (budget : Int) (output : Fields) : Fields → Fields × Int
  | .nil => (output,budget)
  | .cons name value tail =>
    if most = 0 ∨ budget ≤ 0 then (output,budget)
    else
      let safeKey := name.take 256
      let budget := budget - safeKey.length
      let (item,left) := if sensitiveKey safeKey then (.str REDACTED,budget)
        else sanitizeValue depth budget value
      sanitizeFields depth (most - 1) left (output.put safeKey item) tail
end

/-- `sanitize(value)`. -/
def sanitize (value : Value) : Value := (sanitizeValue 0 MAX_SANITIZED_CHARS value).1

inductive EventType where
  | session | userMessage | agentMessage | reasoning | plan | tool | command | fileChange | diff | childWork | approval
  | usage | error | commandResult
deriving DecidableEq

def EventType.words : List (EventType × Text) :=
  [(.session,"session".toList),(.userMessage,"user_message".toList),(.agentMessage,"agent_message".toList),
    (.reasoning,"reasoning".toList),(.plan,"plan".toList),(.tool,"tool".toList),(.command,"command".toList),
    (.fileChange,"file_change".toList),(.diff,"diff".toList),(.childWork,"child_work".toList),(.approval,"approval".toList),
    (.usage,"usage".toList),(.error,"error".toList),(.commandResult,"command_result".toList)]

inductive Phase where
  | started | progress | completed | failed | pending
deriving DecidableEq

def Phase.words : List (Phase × Text) :=
  [(.started,"started".toList),(.progress,"progress".toList),(.completed,"completed".toList),
    (.failed,"failed".toList),(.pending,"pending".toList)]

section
variable {α : Type} [DecidableEq α]

def wordOf (words : List (α × Text)) (a : α) : Text := ((words.find? (·.1 = a)).map (·.2)).getD []
def caseOf (words : List (α × Text)) (text : Text) : Option α := (words.find? (·.2 = text)).map (·.1)

end

def clockChar (c : Char) : Bool := c.isDigit || c ∈ ['-',':','.','T','Z','+']

structure Timestamp where
  iso : Text
  clock : iso.all clockChar = true
deriving DecidableEq

def SCHEMA_VERSION : Int := 1

structure CodingEvent where
  schemaVersion : Int := SCHEMA_VERSION
  seq : Int := 0
  timestamp : Timestamp
  type : EventType
  title : Text := []
  text : Text := []
  phase : Option Phase := none
  itemId : Option Text := none
  turnId : Option Text := none
  sourceEventId : Option Text := none
  data : Fields := .nil
deriving DecidableEq

def boundTitle (value : Text) : Text := (redactText value).take 512
def boundText (value : Text) : Text := (redactText value).take 32768
def boundData (value : Fields) : Fields :=
  match sanitize (.obj value) with
  | .obj bounded => bounded
  | _ => .nil

def construct (event : CodingEvent) : CodingEvent :=
  { event with title := boundTitle event.title, text := boundText event.text, data := boundData event.data }

def optionalText : Option Text → Value
  | none => .null
  | some text => .str text

def toFields (event : CodingEvent) : Fields :=
  .cons "schema_version".toList (.num (.ofInt event.schemaVersion)) <|
  .cons "seq".toList (.num (.ofInt event.seq)) <|
  .cons "timestamp".toList (.str event.timestamp.iso) <|
  .cons "type".toList (.str (wordOf EventType.words event.type)) <|
  .cons "title".toList (.str event.title) <|
  .cons "text".toList (.str event.text) <|
  .cons "phase".toList (optionalText (event.phase.map (wordOf Phase.words))) <|
  .cons "item_id".toList (optionalText event.itemId) <|
  .cons "turn_id".toList (optionalText event.turnId) <|
  .cons "source_event_id".toList (optionalText event.sourceEventId) <|
  .cons "data".toList (.obj event.data) .nil

/-- How `model_dump_json` writes. -/
def modelStyle : Style := ⟨false,false⟩

/-- `event.model_dump_json()`. -/
def dump (event : CodingEvent) : List Char := print modelStyle (.obj (toFields event))

def readOptionalText : Value → Option (Option Text)
  | .null => some none
  | .str text => some (some text)
  | _ => none
def readTimestamp : Value → Option Timestamp
  | .str text => if clock : text.all clockChar = true then some ⟨text,clock⟩ else none
  | _ => none
def readType : Value → Option EventType
  | .str text => caseOf EventType.words text
  | _ => none
def readPhase : Value → Option (Option Phase)
  | .null => some none
  | .str text => (caseOf Phase.words text).map some
  | _ => none

/-- `CodingEvent.model_validate_json`, from the document on. A line without its timestamp is never written and not
    read. -/
def ofValue : Value → Option CodingEvent
  | .obj fields => do
    let schemaVersion ← readField fields "schema_version".toList (some SCHEMA_VERSION) readInt
    let seq ← readField fields "seq".toList (some 0) readInt
    let timestamp ← readField fields "timestamp".toList none readTimestamp
    let type ← readField fields "type".toList none readType
    let title ← readField fields "title".toList (some []) readText
    let text ← readField fields "text".toList (some []) readText
    let phase ← readField fields "phase".toList (some none) readPhase
    let itemId ← readField fields "item_id".toList (some none) readOptionalText
    let turnId ← readField fields "turn_id".toList (some none) readOptionalText
    let sourceEventId ← readField fields "source_event_id".toList (some none) readOptionalText
    let data ← readField fields "data".toList (some .nil) readObject
    return construct { schemaVersion, seq, timestamp, type, title, text, phase, itemId, turnId, sourceEventId, data }
  | _ => none

/-- `CodingEvent.model_validate_json(line)`. -/
def load (line : List Char) : Option CodingEvent := (parse line).bind ofValue

theorem caseOf_type (type : EventType) : caseOf EventType.words (wordOf EventType.words type) = some type := by
  cases type <;> decide

theorem caseOf_phase (phase : Phase) : caseOf Phase.words (wordOf Phase.words phase) = some phase := by
  cases phase <;> decide

@[simp] theorem readTimestamp_iso (time : Timestamp) : readTimestamp (.str time.iso) = some time := by
  simp only [readTimestamp,dif_pos time.clock]

@[simp] theorem readType_word (type : EventType) : readType (.str (wordOf EventType.words type)) = some type :=
  caseOf_type type

@[simp] theorem readPhase_word (phase : Option Phase) :
    readPhase (optionalText (phase.map (wordOf Phase.words))) = some phase := by
  cases phase with
  | none => rfl
  | some phase => simp [optionalText,readPhase,caseOf_phase]

@[simp] theorem readOptionalText_optional (text : Option Text) : readOptionalText (optionalText text) = some text := by
  cases text <;> rfl

theorem ofValue_toFields (event : CodingEvent) : ofValue (.obj (toFields event)) = some (construct event) := by
  simp [ofValue,toFields,readField,Fields.get,readText,readObject]

theorem load_dump (event : CodingEvent) : load (dump event) = some (construct event) := by
  rw [load,dump,parse_print,Option.bind_some,ofValue_toFields]

theorem load_cut (event : CodingEvent) {front back : List Char} (text : dump event = front ++ back) (cut : back ≠ []) :
    load front = none := by
  rw [load,parse_cut modelStyle (toFields event) text cut,Option.bind_none]

end Cowork.CodingEvents
