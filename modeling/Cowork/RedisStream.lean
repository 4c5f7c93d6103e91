import Cowork.Transitions
import Cowork.StreamRecords

/-!
The Redis buffer of a turn: a stream that one producer writes, and readers on any
replica that replay it, follow it, and end it when nothing has been written for five
minutes. A step is one Redis command of one of them, or the taking of a write lock.
-/
namespace Cowork.RedisStream
open JsonText StreamRecords List

structure EntryFields where
  seq : Text
  ts : Text
  type : Text
  data : Text

/-- How `json.dumps(data)` writes. -/
def dataStyle : Style := ⟨true,true⟩

/-- What `xadd` is given. -/
def entryFields (record : TurnRecord) : EntryFields :=
  ⟨intText record.seq,record.ts,record.type,print dataStyle (.obj record.data)⟩

/-- `_record(fields)`. -/
def recordOf (fields : EntryFields) : Option TurnRecord := do
  let seq ← intOfText fields.seq
  let data ← (parse (if fields.data = [] then ['{','}'] else fields.data)).bind readObject
  return { seq, ts := fields.ts, type := fields.type, data }

theorem recordOf_entryFields (record : TurnRecord) : recordOf (entryFields record) = some record := by
  have some : print dataStyle (.obj record.data) ≠ [] := by
    intro empty
    have := print_length dataStyle (.obj record.data)
    simp [empty] at this
  simp [recordOf,entryFields,some,parse_print,readObject]

structure Entry where
  id : Nat
  record : TurnRecord

structure Stream where
  entries : List Entry
  nextId : Nat

def Stream.records (stream : Stream) : List TurnRecord := stream.entries.map (·.record)

/-- `XADD`, with the `EXPIRE` of the same transaction. -/
def Stream.add (stream : Stream) (record : TurnRecord) : Stream :=
  ⟨stream.entries ++ [⟨stream.nextId,record⟩],stream.nextId + 1⟩

/-- A `RedisStreamBuffer` in some process. -/
structure Buffer where
  nextSeq : Nat
  closed : Bool
  locked : Bool

/-- `RedisStreamBuffer(conversation_id, turn_id)`. -/
def opened : Buffer := ⟨0,false,false⟩

inductive Producer where
  | idle
  /-- In `append`, before it holds the write lock. -/
  | waiting (ts type : Text) (data : Fields) (closing : Bool)
  /-- In `append`, its number taken and its command on the way. -/
  | sending (record : TurnRecord) (closing : Bool)
  /-- Its `close` has returned. -/
  | done
deriving DecidableEq

/-- Where a reader stands in `tail`. -/
inductive Place where
  | replay
  | live
  /-- In `_terminate_as_orphan`, before it looks at the last entry. -/
  | check
  /-- In the `close` of `_terminate_as_orphan`, before it holds the write lock. -/
  | lock
  | send (record : TurnRecord)
  | report
  | ended
deriving DecidableEq

/-- A reader over the buffer object `buffer`. -/
structure Reader where
  buffer : Nat
  fromSeq : Int
  /-- One more than `last_id`. -/
  after : Nat
  idle : Nat
  yielded : List TurnRecord
  place : Place

/-- How many empty blocks of `_BLOCK_MS` make up `REDIS_TAIL_IDLE_TIMEOUT_SECONDS`. -/
def IDLE_BLOCKS : Nat := 300 * 1000 / 5000

/-- Go through entries: each from `from_seq` on is yielded, up to a terminal one. -/
def consume : List Entry → Reader → Reader
  | [],reader => { reader with place := .live }
  | entry :: more,reader =>
    if entry.record.seq < reader.fromSeq then consume more { reader with after := entry.id + 1 }
    else if entry.record.isTerminal then
      { reader with after := entry.id + 1, yielded := reader.yielded ++ [entry.record], place := .ended }
    else consume more { reader with after := entry.id + 1, yielded := reader.yielded ++ [entry.record] }

def newEntries (stream : Stream) (reader : Reader) : List Entry :=
  stream.entries.filter fun entry => reader.after ≤ entry.id

def orphanRecord (seq : Nat) (ts : Text) : TurnRecord where
  seq := seq
  ts := ts
  type := TerminalReason.interrupted.type
  data := closeData .interrupted
    (.cons "error".toList (.str "the worker running this turn stopped responding".toList) .nil)

def following (stream : Stream) : Nat :=
  match stream.records.getLast? with
  | none => 0
  | some record => (record.seq + 1).toNat

def endsTerminal (stream : Stream) : Bool :=
  match stream.records.getLast? with
  | none => false
  | some record => record.isTerminal

def readerStep (ts : Text) (stream : Stream) (buffer : Buffer) (reader : Reader) : Stream × Buffer × Reader :=
  match reader.place with
  | .replay => (stream,buffer,consume stream.entries reader)
  | .live =>
    match newEntries stream reader with
    | [] =>
      (stream,buffer,{ reader with
        idle := reader.idle + 1, place := if IDLE_BLOCKS ≤ reader.idle + 1 then .check else .live })
    | entries => (stream,buffer,consume entries { reader with idle := 0 })
  | .check =>
    if endsTerminal stream then
      (stream,buffer,{ reader with yielded := reader.yielded ++ stream.records.getLast?.toList, place := .ended })
    else (stream,{ buffer with nextSeq := following stream, closed := false },{ reader with place := .lock })
  | .lock =>
    if buffer.locked then (stream,buffer,reader)
    else
      (stream,{ buffer with nextSeq := buffer.nextSeq + 1, locked := true },
        { reader with place := .send (orphanRecord buffer.nextSeq ts) })
  | .send record => (stream.add record,{ buffer with closed := true, locked := false },{ reader with place := .report })
  | .report => (stream,buffer,{ reader with yielded := reader.yielded ++ stream.records.getLast?.toList, place := .ended })
  | .ended => (stream,buffer,reader)

structure World where
  stream : Stream
  buffers : Nat → Buffer
  producer : Producer
  readers : List Reader
  /-- A reader has found the turn neither ended nor written to, and ends it. -/
  abandoned : Bool

inductive Action where
  | append (ts type : Text) (data : Fields)
  | close (ts : Text) (reason : TerminalReason) (extra : Fields)
  | acquire
  | execute
  | tail (buffer : Nat) (fromSeq : Int)
  | advance (k : Nat) (ts : Text)
  /-- Nothing was written for `REDIS_BUFFER_TTL_SECONDS`. -/
  | expire

def acquire (world : World) : World :=
  match world.producer with
  | .waiting ts type data closing =>
    if (world.buffers 0).locked then world
    else
      { world with
        buffers := Function.update world.buffers 0
          { world.buffers 0 with nextSeq := (world.buffers 0).nextSeq + 1, locked := true }
        producer := .sending { seq := (world.buffers 0).nextSeq, ts, type, data } closing }
  | _ => world

def execute (world : World) : World :=
  match world.producer with
  | .sending record closing =>
    { world with
      stream := world.stream.add record
      buffers := Function.update world.buffers 0
        { world.buffers 0 with closed := (world.buffers 0).closed || closing, locked := false }
      producer := if closing then .done else .idle }
  | _ => world

def step (world : World) : Action → World
  | .append ts type data =>
    match world.producer with
    | .idle => { world with producer := .waiting ts type data false }
    | _ => world
  | .close ts reason extra =>
    match world.producer with
    | .idle =>
      if (world.buffers 0).closed then { world with producer := .done }
      else { world with producer := .waiting ts reason.type (closeData reason extra) true }
    | _ => world
  | .acquire => acquire world
  | .execute => execute world
  | .tail buffer fromSeq => { world with readers := world.readers ++ [⟨buffer,fromSeq,0,0,[],.replay⟩] }
  | .advance k ts =>
    match world.readers[k]? with
    | none => world
    | some reader =>
      let moved := readerStep ts world.stream (world.buffers reader.buffer) reader
      { world with
        stream := moved.1
        buffers := Function.update world.buffers reader.buffer moved.2.1
        readers := world.readers.set k moved.2.2
        abandoned := world.abandoned || moved.2.2.place = .lock }
  | .expire => { world with stream := ⟨[],world.stream.nextId⟩ }

def start : World := ⟨⟨[],0⟩,fun _ => opened,.idle,[],false⟩

def Numbered (records : List TurnRecord) : Prop :=
  records.map (·.seq) = (List.range records.length).map Int.ofNat

def Running (records : List TurnRecord) : Prop := ∀ record ∈ records, record.isTerminal = false

def EndsOnce (records : List TurnRecord) : Prop := Numbered records ∧ Running records.dropLast

instance (records : List TurnRecord) : Decidable (Numbered records) :=
  inferInstanceAs (Decidable (_ = _))

instance (records : List TurnRecord) : Decidable (Running records) :=
  inferInstanceAs (Decidable (∀ record ∈ records, _))

instance (records : List TurnRecord) : Decidable (EndsOnce records) :=
  inferInstanceAs (Decidable (_ ∧ _))

theorem records_add (stream : Stream) (record : TurnRecord) :
    (stream.add record).records = stream.records ++ [record] := by simp [Stream.add,Stream.records]

variable {records : List TurnRecord} {record : TurnRecord}

theorem Numbered.add (numbered : Numbered records) (next : record.seq = records.length) : Numbered (records ++ [record]) := by
  have start : records.map (·.seq) = (List.range records.length).map Int.ofNat := numbered
  simp only [Numbered,map_append,start,length_append,length_singleton,range_succ,map_cons,next]
  rfl

theorem Running.add (running : Running records) (open_ : record.isTerminal = false) : Running (records ++ [record]) := by
  grind only [mem_append,mem_singleton,Running]

theorem endsOnce_add (numbered : Numbered records) (running : Running records) (next : record.seq = records.length) :
    EndsOnce (records ++ [record]) := by
  refine ⟨numbered.add next,?_⟩
  rw [dropLast_concat]
  exact running

theorem running_of_open {stream : Stream} (once : EndsOnce stream.records) (unended : endsTerminal stream = false) :
    Running stream.records := by
  cases last : stream.records.getLast? with
  | none => rw [getLast?_eq_none_iff.mp last]; simp [Running]
  | some record =>
    have split := dropLast_append_getLast? record last
    simp only [endsTerminal,last] at unended
    rw [← split]; exact once.2.add unended

theorem following_length {stream : Stream} (numbered : Numbered stream.records) :
    following stream = stream.records.length := by
  grind only [following,getLast?_eq_none_iff,getLast?_map,length_pos_iff,getLast?_range,Option.map_some,Numbered]

end Cowork.RedisStream
