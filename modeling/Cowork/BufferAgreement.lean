import Cowork.FileStream
import Cowork.RedisStream

/-!
The file buffer and the Redis buffer of a turn, given the same calls and then read by
one `tail`. A file reader yields what there is, and waits for ever unless the buffer is
closed, where a Redis reader stops at a terminal record or ends a quiet stream. When
they agree is `buffers_agree_iff`.
-/
namespace Cowork.BufferAgreement
open Transitions JsonText StreamRecords Function
open List hiding tail

inductive Call where
  | append (type : Text) (data : Fields)
  | close (reason : TerminalReason) (extra : Fields)

structure Timed where
  call : Call
  fileTime : Text
  redisTime : Text

def fileCall (buffer : FileStream.Buffer) (timed : Timed) : FileStream.Buffer :=
  match timed.call with
  | .append type data => FileStream.write .finish (FileStream.write (.append timed.fileTime type data) buffer)
  | .close reason extra => FileStream.write .finish (FileStream.write (.close timed.fileTime reason extra) buffer)

structure Redis where
  stream : RedisStream.Stream
  buffer : RedisStream.Buffer

/-- `RedisStreamBuffer.append`, when nobody else holds the lock. -/
def redisAppend (redis : Redis) (ts type : Text) (data : Fields) : Redis where
  stream := redis.stream.add { seq := redis.buffer.nextSeq, ts, type, data }
  buffer := { redis.buffer with nextSeq := redis.buffer.nextSeq + 1 }

def redisCall (redis : Redis) (timed : Timed) : Redis :=
  match timed.call with
  | .append type data => redisAppend redis timed.redisTime type data
  | .close reason extra =>
    if redis.buffer.closed then redis
    else
      let written := redisAppend redis timed.redisTime reason.type (closeData reason extra)
      { written with buffer := { written.buffer with closed := true } }

def emptyRedis : Redis := ⟨⟨[],0⟩,RedisStream.opened⟩

def fileRun (calls : List Timed) : FileStream.Buffer := reach fileCall FileStream.opened calls
def redisRun (calls : List Timed) : Redis := reach redisCall emptyRedis calls

abbrev View := Int × Text × Fields

def view (record : TurnRecord) : View := (record.seq,record.type,record.data)

def View.terminal (v : View) : Bool := isTerminalType v.2.1

def FileTail (buffer : FileStream.Buffer) (fromSeq : Int) (reader : FileStream.Reader) : Prop :=
  Settles (FileStream.advance buffer) (FileStream.tail fromSeq buffer) reader

def redisAdvance (ts : Text) (state : RedisStream.Stream × RedisStream.Buffer × RedisStream.Reader) :
    RedisStream.Stream × RedisStream.Buffer × RedisStream.Reader :=
  RedisStream.readerStep ts state.1 state.2.1 state.2.2

def RedisTail (ts : Text) (redis : Redis) (fromSeq : Int) (reader : RedisStream.Reader) : Prop :=
  ∃ stream buffer, Settles (redisAdvance ts) (redis.stream,redis.buffer,⟨0,fromSeq,0,0,[],.replay⟩) (stream,buffer,reader)

/-- `latest_seq` and `is_closed` are the same. -/
def SameState (file : FileStream.Buffer) (redis : Redis) : Prop :=
  file.seq = redis.buffer.nextSeq ∧ file.closed = redis.buffer.closed

def SameTail (file : FileStream.Reader) (redis : RedisStream.Reader) : Prop :=
  file.yielded.map view = redis.yielded.map view ∧ (file.place = .ended ↔ redis.place = .ended)

structure Agree (calls : List Timed) (fromSeq : Int) : Prop where
  states : ∀ front, front <+: calls → SameState (fileRun front) (redisRun front)
  tails : ∀ (ts : Text) (file : FileStream.Reader) (redis : RedisStream.Reader), FileTail (fileRun calls) fromSeq file →
    RedisTail ts (redisRun calls) fromSeq redis → SameTail file redis

def NoLateAppend : Bool → List Call → Prop
  | _,[] => True
  | closed,.append _ _ :: more => closed = false ∧ NoLateAppend closed more
  | _,.close _ _ :: more => NoLateAppend true more

/-- What the calls write, numbered from `n`, up to the first close. -/
def recorded (n : Nat) : List Call → List View
  | [] => []
  | .append type data :: more => ((n : Int),type,data) :: recorded (n + 1) more
  | .close reason extra :: _ => [((n : Int),reason.type,closeData reason extra)]

/-- The last record has a number from `from_seq` on and is the first terminal one of those. -/
def EndsWith (fromSeq : Int) (views : List View) : Prop :=
  ∃ front last, views = front ++ [last] ∧ fromSeq ≤ last.1 ∧ last.terminal = true ∧
    ∀ v ∈ front, fromSeq ≤ v.1 → v.terminal = false

def sinceView (fromSeq : Int) (views : List View) : List View := views.filter fun v => fromSeq ≤ v.1

def upToTerminal : List View → List View
  | [] => []
  | v :: more => if v.terminal then [v] else v :: upToTerminal more

theorem upToTerminal_append {front : List View} (running : ∀ v ∈ front, v.terminal = false) (back : List View) :
    upToTerminal (front ++ back) = front ++ upToTerminal back := by
  induction front <;> grind [upToTerminal]

theorem upToTerminal_stops {front : List View} (ends : ∃ v ∈ front, v.terminal = true) (back : List View) :
    upToTerminal (front ++ back) = upToTerminal front := by
  induction front with
  | nil => simp at ends
  | cons v more ih =>
    by_cases terminal : v.terminal
    · simp only [cons_append,upToTerminal,if_pos terminal]
    · obtain ⟨other,inside,is⟩ := ends
      rcases mem_cons.mp inside with same | later
      · rw [same] at is
        exact absurd is terminal
      · simp only [cons_append,upToTerminal]
        rw [ih ⟨other,later,is⟩]

theorem upToTerminal_length (views : List View) : (upToTerminal views).length ≤ views.length := by
  induction views <;> grind [upToTerminal]

theorem endsWith_iff {fromSeq : Int} {views : List View} (sorted : views.Pairwise fun a b => a.1 ≤ b.1) :
    EndsWith fromSeq views ↔ (∃ v ∈ sinceView fromSeq views, v.terminal = true) ∧
      upToTerminal (sinceView fromSeq views) = sinceView fromSeq views := by
  constructor
  · rintro ⟨front,last,rfl,reached,terminal,running⟩
    have split : sinceView fromSeq (front ++ [last]) = sinceView fromSeq front ++ [last] := by
      simp [sinceView,reached]
    have quiet : ∀ v ∈ sinceView fromSeq front, v.terminal = false := by
      intro v inside
      obtain ⟨member,above⟩ := mem_filter.mp inside
      exact running v member (by simpa using above)
    rw [split]
    refine ⟨⟨last,by simp,terminal⟩,?_⟩
    rw [upToTerminal_append quiet]; simp [upToTerminal]
  · rintro ⟨⟨v,inside,terminal⟩,whole⟩
    obtain ⟨member,above⟩ := mem_filter.mp inside
    have some : views ≠ [] := ne_nil_of_mem member
    obtain ⟨front,last,rfl⟩ : ∃ front last, views = front ++ [last] :=
      ⟨views.dropLast,views.getLast some,(dropLast_append_getLast some).symm⟩
    have reached : fromSeq ≤ last.1 := by
      have low : fromSeq ≤ v.1 := by simpa using above
      rcases mem_append.mp member with earlier | same
      · have order := (pairwise_append.mp sorted).2.2 v earlier last (by simp)
        omega
      · rw [← mem_singleton.mp same]; exact low
    have split : sinceView fromSeq (front ++ [last]) = sinceView fromSeq front ++ [last] := by
      simp [sinceView,reached]
    have running : ∀ w ∈ sinceView fromSeq front, w.terminal = false := by
      intro w early
      by_contra ends
      have short := upToTerminal_stops ⟨w,early,by simpa using ends⟩ [last]
      grind only [upToTerminal_length,length_append,length_singleton]
    refine ⟨front,last,rfl,reached,?_,?_⟩
    · rw [split] at inside
      rcases mem_append.mp inside with early | same
      · rw [running v early] at terminal; cases terminal
      · rw [← mem_singleton.mp same]; exact terminal
    · intro w early high; exact running w (mem_filter.mpr ⟨early,by simpa using high⟩)

section
open FileStream TextFiles
variable {buffer : FileStream.Buffer}

theorem view_since (fromSeq : Int) (records : List TurnRecord) :
    (since fromSeq records).map view = sinceView fromSeq (records.map view) := by
  simp only [sinceView,filter_map]
  rfl

theorem readNew_fresh (sound : Sound buffer) (idle : buffer.writing = none) (fromSeq : Int) :
    readNew buffer (tail fromSeq buffer) = buffer.log := by
  have bytes : buffer.file = encode (lines (buffer.log.map line)) := by
    rw [← sound.bytes,(sound.idle idle).1,append_nil]
  have whole := log_lines_whole buffer.log
  have cut := cutLines_front whole (show buffer.file <+: _ from bytes ▸ prefix_refl _)
  grind only [length_le_cutLines,take_of_length_le,drop_zero,parse_log,cases Sound,readNew,tail]

theorem advance_batch (buffer : FileStream.Buffer) (waiter : Nat) (closed : Bool) (batch : List TurnRecord)
    (reader : FileStream.Reader) (emitted : Bool) :
    (FileStream.advance buffer)^[batch.length + 1] { reader with place := .yielding waiter closed batch emitted } =
      { reader with
        yielded := reader.yielded ++ since reader.fromSeq batch
        place :=
          if (emitted || (since reader.fromSeq batch).any (·.isTerminal)) || closed then .ended else .waiting waiter } := by
  induction batch generalizing reader emitted with
  | nil => simp [FileStream.advance,since]
  | cons record more ih =>
    rw [length_cons,iterate_succ_apply]
    by_cases below : record.seq < reader.fromSeq
    · grind [since,FileStream.advance]
    · have kept : since reader.fromSeq (record :: more) = record :: since reader.fromSeq more := by
        simp [since,not_lt.mp below]
      have stepped : FileStream.advance buffer { reader with place := .yielding waiter closed (record :: more) emitted } =
          { reader with
            yielded := reader.yielded ++ [record]
            place := .yielding waiter closed more (emitted || record.isTerminal) } := by
        simp only [FileStream.advance,if_neg below]
      have later := ih { reader with yielded := reader.yielded ++ [record] } (emitted || record.isTerminal)
      rw [stepped,later,kept]; simp [Bool.or_assoc]

theorem file_tail (sound : Sound buffer) (idle : buffer.writing = none) (fromSeq : Int) :
    ∃ reader, FileTail buffer fromSeq reader ∧ reader.yielded = since fromSeq buffer.log ∧
      (reader.place = .ended ↔ (∃ record ∈ since fromSeq buffer.log, record.isTerminal = true) ∨ buffer.closed = true) := by
  have first : FileStream.advance buffer (tail fromSeq buffer) =
      ⟨fromSeq,buffer.file.length,(cutLines buffer.file).2,[],
        .yielding buffer.current buffer.closed buffer.log false⟩ := by
    rw [← readNew_fresh sound idle fromSeq]; simp [FileStream.advance,tail]
  have comes := advance_batch buffer buffer.current buffer.closed buffer.log
    ⟨fromSeq,buffer.file.length,(cutLines buffer.file).2,[],.top⟩ false
  simp only [← first,← iterate_succ_apply] at comes
  refine ⟨_,⟨⟨_,comes⟩,?_⟩,rfl,?_⟩
  all_goals grind [FileStream.advance]

end

section
open RedisStream

def entryViews (entries : List Entry) : List View := entries.map fun entry => view entry.record

theorem sinceView_skip {fromSeq : Int} {entry : Entry} (below : entry.record.seq < fromSeq) (more : List Entry) :
    sinceView fromSeq (entryViews (entry :: more)) = sinceView fromSeq (entryViews more) := by
  simp [sinceView,entryViews,view,below]

theorem sinceView_keep {fromSeq : Int} {entry : Entry} (reached : ¬entry.record.seq < fromSeq) (more : List Entry) :
    sinceView fromSeq (entryViews (entry :: more)) = view entry.record :: sinceView fromSeq (entryViews more) := by
  simp [sinceView,entryViews,view,not_lt.mp reached]

theorem consume_ends {entries : List Entry} {reader : RedisStream.Reader}
    (ends : ∃ v ∈ sinceView reader.fromSeq (entryViews entries), v.terminal = true) :
    (consume entries reader).place = .ended ∧ (consume entries reader).yielded.map view =
      reader.yielded.map view ++ upToTerminal (sinceView reader.fromSeq (entryViews entries)) := by
  induction entries generalizing reader with
  | nil => simp [sinceView,entryViews] at ends
  | cons entry more ih =>
    by_cases below : entry.record.seq < reader.fromSeq
    · rw [sinceView_skip below] at ends ⊢
      simp only [consume,if_pos below]
      exact @ih { reader with after := entry.id + 1 } ends
    · rw [sinceView_keep below] at ends ⊢
      by_cases terminal : entry.record.isTerminal
      · have stops : (view entry.record).terminal = true := terminal
        simp only [consume,if_neg below,if_pos terminal,upToTerminal,stops]
        simp
      · have goes : ¬(view entry.record).terminal = true := terminal
        grind [consume,upToTerminal]

theorem consume_follows {entries : List Entry} {reader : RedisStream.Reader}
    (running : ∀ v ∈ sinceView reader.fromSeq (entryViews entries), v.terminal = false) :
    ∃ yielded, consume entries reader =
        { reader with
          after := (entries.map (·.id)).foldl (fun _ id => id + 1) reader.after, yielded := yielded, place := .live } ∧
      yielded.map view = reader.yielded.map view ++ sinceView reader.fromSeq (entryViews entries) := by
  induction entries generalizing reader with
  | nil => exact ⟨reader.yielded,rfl,by simp [sinceView,entryViews]⟩
  | cons entry more ih =>
    by_cases below : entry.record.seq < reader.fromSeq
    · rw [sinceView_skip below] at running ⊢
      simp only [consume,if_pos below]
      exact @ih { reader with after := entry.id + 1 } running
    · rw [sinceView_keep below] at running ⊢
      have goes : entry.record.isTerminal = false := running (view entry.record) (by simp)
      simp only [consume,if_neg below,goes]
      obtain ⟨yielded,ended,views⟩ :=
        @ih { reader with after := entry.id + 1, yielded := reader.yielded ++ [entry.record] }
          (fun v inside => running v (by simp [inside]))
      exact ⟨yielded,ended,by simpa using views⟩

theorem redis_idles (ts : Text) {stream : Stream} {buffer : RedisStream.Buffer} {reader : RedisStream.Reader}
    (nothing : newEntries stream reader = []) (place : reader.place = .live) (blocks : Nat)
    (left : reader.idle + blocks + 1 = IDLE_BLOCKS) :
    (redisAdvance ts)^[blocks + 1] (stream,buffer,reader) =
      (stream,buffer,{ reader with idle := IDLE_BLOCKS, place := .check }) := by
  have stepped : redisAdvance ts (stream,buffer,reader) =
      (stream,buffer,{ reader with
        idle := reader.idle + 1, place := if IDLE_BLOCKS ≤ reader.idle + 1 then .check else .live }) := by
    simp only [redisAdvance,readerStep,place,nothing]
  induction blocks generalizing reader with
  | zero =>
    rw [iterate_succ_apply,stepped,if_pos (by omega)]
    simp only [iterate_zero,id_eq]
    rw [← left]
  | succ blocks ih =>
    rw [iterate_succ_apply,stepped,if_neg (by omega)]
    refine (@ih { reader with idle := reader.idle + 1, place := .live } nothing rfl (by simp only; omega) ?_).trans rfl
    have again : newEntries stream { reader with idle := reader.idle + 1, place := .live } = [] := nothing
    simp only [redisAdvance,readerStep,again]

theorem redis_gives_up (ts : Text) {stream : Stream} {buffer : RedisStream.Buffer} {reader : RedisStream.Reader}
    (unlocked : buffer.locked = false) (place : reader.place = .check) :
    ∃ stream' buffer' record, Settles (redisAdvance ts) (stream,buffer,reader)
      (stream',buffer',{ reader with yielded := reader.yielded ++ [record], place := .ended }) := by
  by_cases ended : endsTerminal stream
  · cases last : stream.records.getLast? with
    | none => simp [endsTerminal,last] at ended
    | some record =>
      refine ⟨stream,buffer,record,Settles.next ?_⟩
      have stepped : redisAdvance ts (stream,buffer,reader) =
          (stream,buffer,{ reader with yielded := reader.yielded ++ [record], place := .ended }) := by
        simp only [redisAdvance,readerStep,place,if_pos ended,last,Option.toList]
      rw [stepped]; exact ⟨⟨0,rfl⟩,rfl⟩
  · -- look, lock, write, report
    have looks : redisAdvance ts (stream,buffer,reader) =
        (stream,{ buffer with nextSeq := following stream, closed := false },{ reader with place := .lock }) := by
      simp only [redisAdvance,readerStep,place,if_neg ended]
    have last : (stream.add (orphanRecord (following stream) ts)).records.getLast? =
        some (orphanRecord (following stream) ts) := by
      rw [records_add,getLast?_concat]
    refine ⟨stream.add (orphanRecord (following stream) ts),
      { buffer with nextSeq := following stream + 1, closed := true },orphanRecord (following stream) ts,Settles.later 4 ?_⟩
    simp only [iterate_succ_apply,looks]
    simp only [redisAdvance,readerStep,unlocked,Bool.false_eq_true,if_false,last]
    exact ⟨⟨0,rfl⟩,rfl⟩

def Counted (stream : Stream) : Prop := stream.entries.map (·.id) = List.range stream.nextId

theorem counted_after {stream : Stream} (counted : Counted stream) :
    (stream.entries.map (·.id)).foldl (fun _ id => id + 1) 0 = stream.nextId := by
  have ids : stream.entries.map (·.id) = range stream.nextId := counted
  rw [ids]
  cases stream.nextId with
  | zero => rfl
  | succ n => simp [range_succ]

theorem counted_nothing_new {stream : Stream} (counted : Counted stream) {reader : RedisStream.Reader}
    (after : reader.after = stream.nextId) : newEntries stream reader = [] := by
  grind only [filter_eq_nil_iff,mem_map_of_mem,mem_range,Counted,newEntries]

theorem redis_tail (ts : Text) {redis : Redis} (counted : Counted redis.stream) (unlocked : redis.buffer.locked = false)
    (fromSeq : Int) : ∃ reader, RedisTail ts redis fromSeq reader ∧ reader.place = .ended ∧
      ((∃ v ∈ sinceView fromSeq (redis.stream.records.map view), v.terminal = true) ∧
          reader.yielded.map view = upToTerminal (sinceView fromSeq (redis.stream.records.map view)) ∨
        (∀ v ∈ sinceView fromSeq (redis.stream.records.map view), v.terminal = false) ∧
          ∃ more, reader.yielded.map view = sinceView fromSeq (redis.stream.records.map view) ++ [more]) := by
  have views : redis.stream.records.map view = entryViews redis.stream.entries := by simp [Stream.records,entryViews]
  rw [views]
  have replays : redisAdvance ts (redis.stream,redis.buffer,⟨0,fromSeq,0,0,[],.replay⟩) =
    (redis.stream,redis.buffer,consume redis.stream.entries ⟨0,fromSeq,0,0,[],.replay⟩) := rfl
  by_cases ends : ∃ v ∈ sinceView fromSeq (entryViews redis.stream.entries), v.terminal = true
  · obtain ⟨ended,yields⟩ := @consume_ends redis.stream.entries ⟨0,fromSeq,0,0,[],.replay⟩ ends
    refine ⟨_,⟨redis.stream,redis.buffer,Settles.next (replays ▸ ⟨⟨0,rfl⟩,?_⟩)⟩,ended,.inl ⟨ends,yields⟩⟩
    simp only [redisAdvance,readerStep,ended]
  · have running : ∀ v ∈ sinceView fromSeq (entryViews redis.stream.entries), v.terminal = false := by
      intro v inside
      by_contra terminal
      exact ends ⟨v,inside,by simpa using terminal⟩
    obtain ⟨yielded,follows,yields⟩ := @consume_follows redis.stream.entries ⟨0,fromSeq,0,0,[],.replay⟩ running
    rw [counted_after counted] at follows
    have nothing : newEntries redis.stream ⟨0,fromSeq,redis.stream.nextId,0,yielded,.live⟩ = [] :=
      counted_nothing_new counted rfl
    have idles := @redis_idles ts redis.stream redis.buffer ⟨0,fromSeq,redis.stream.nextId,0,yielded,.live⟩ nothing rfl
      (IDLE_BLOCKS - 1) (show 0 + (IDLE_BLOCKS - 1) + 1 = IDLE_BLOCKS by decide)
    obtain ⟨stream',buffer',record,settles⟩ := @redis_gives_up ts redis.stream redis.buffer
      ⟨0,fromSeq,redis.stream.nextId,IDLE_BLOCKS,yielded,.check⟩ unlocked rfl
    refine ⟨⟨0,fromSeq,redis.stream.nextId,IDLE_BLOCKS,yielded ++ [record],.ended⟩,⟨stream',buffer',Settles.next ?_⟩,rfl,
      .inr ⟨running,view record,?_⟩⟩
    · rw [replays,follows]; exact Settles.later _ (idles ▸ settles)
    · simpa using yields

end

structure Same (file : FileStream.Buffer) (redis : Redis) : Prop where
  sound : FileStream.Sound file
  idle : file.writing = none
  views : redis.stream.records.map view = file.log.map view
  state : SameState file redis
  counted : Counted redis.stream
  unlocked : redis.buffer.locked = false

theorem same_opened : Same FileStream.opened emptyRedis :=
  ⟨FileStream.sound_opened,rfl,rfl,⟨rfl,rfl⟩,rfl,rfl⟩

theorem Counted.add {stream : RedisStream.Stream} (counted : Counted stream) (record : TurnRecord) :
    Counted (stream.add record) := by
  grind only [Counted,RedisStream.Stream.add,map_append,map_cons,map_nil,range_succ]

section
variable {file : FileStream.Buffer} {redis : Redis}

theorem fileCall_closed (idle : file.writing = none) (closed : file.closed = true) (timed : Timed) :
    fileCall file timed = file := by grind only [fileCall,FileStream.write]

theorem fileCall_sound (sound : FileStream.Sound file) (timed : Timed) : FileStream.Sound (fileCall file timed) := by
  grind only [fileCall,FileStream.sound_write]

theorem fileCall_open (idle : file.writing = none) (open_ : file.closed = false) (timed : Timed) :
    (fileCall file timed).writing = none ∧ (fileCall file timed).seq = file.seq + 1 ∧
      match timed.call with
      | .append type data => (fileCall file timed).closed = false ∧
          (fileCall file timed).log.map view = file.log.map view ++ [((file.seq : Int),type,data)]
      | .close reason extra => (fileCall file timed).closed = true ∧
          (fileCall file timed).log.map view =
            file.log.map view ++ [((file.seq : Int),reason.type,closeData reason extra)] := by
  grind [fileCall,FileStream.write,FileStream.beginWrite,view]

theorem redisAppend_views (redis : Redis) (ts type : Text) (data : Fields) :
    (redisAppend redis ts type data).stream.records.map view =
      redis.stream.records.map view ++ [((redis.buffer.nextSeq : Int),type,data)] := by
  rw [redisAppend,RedisStream.records_add]
  simp [view]

theorem Same.call (same : Same file redis) (timed : Timed)
    (early : ∀ type data, timed.call = .append type data → file.closed = false) :
    Same (fileCall file timed) (redisCall redis timed) := by
  obtain ⟨latest,closing⟩ := same.state
  by_cases closed : file.closed = true
  · grind only [redisCall,fileCall_closed,same.idle]
  · have open_ : file.closed = false := by simpa using closed
    have redisOpen : redis.buffer.closed = false := by rw [← closing,open_]
    have sound := fileCall_sound same.sound timed
    obtain ⟨idle,seq,written⟩ := fileCall_open same.idle open_ timed
    cases call : timed.call with
    | append type data =>
      have called : redisCall redis timed = redisAppend redis timed.redisTime type data := by simp only [redisCall,call]
      rw [called]
      refine ⟨sound,idle,?_,⟨?_,?_⟩,same.counted.add _,same.unlocked⟩
      all_goals grind only [redisAppend_views,cases Same,redisAppend]
    | close reason extra =>
      rw [call] at written
      have called : redisCall redis timed =
          ⟨(redisAppend redis timed.redisTime reason.type (closeData reason extra)).stream,
            { redis.buffer with nextSeq := redis.buffer.nextSeq + 1, closed := true }⟩ := by
        simp only [redisCall,call,redisOpen]
        rfl
      rw [called]
      refine ⟨sound,idle,?_,⟨?_,written.1⟩,same.counted.add _,same.unlocked⟩
      · rw [redisAppend_views,same.views,written.2,latest]
      · rw [seq,latest]

theorem late_append_differs (same : Same file redis) (closed : file.closed = true) {timed : Timed} {type : Text}
    {data : Fields} (call : timed.call = .append type data) : ¬SameState (fileCall file timed) (redisCall redis timed) := by
  grind only [fileCall_closed,redisCall,redisAppend,SameState,cases Same]

theorem states_iff (same : Same file redis) (calls : List Timed) :
    (∀ front, front <+: calls → SameState (reach fileCall file front) (reach redisCall redis front)) ↔
      NoLateAppend file.closed (calls.map (·.call)) := by
  induction calls generalizing file redis with
  | nil =>
    refine ⟨fun _ => trivial,fun _ front start => ?_⟩
    rw [prefix_nil.mp start]; exact same.state
  | cons timed more ih =>
    have here : (∀ front, front <+: timed :: more → SameState (reach fileCall file front) (reach redisCall redis front)) ↔
        ∀ front, front <+: more →
          SameState (reach fileCall (fileCall file timed) front) (reach redisCall (redisCall redis timed) front) := by
      constructor
      · intro all front start; exact all (timed :: front) ((prefix_cons_inj timed).mpr start)
      · intro later front start
        rcases prefix_cons_iff.mp start with rfl | ⟨rest,rfl,inside⟩
        · exact same.state
        · exact later rest inside
    rw [here]
    cases call : timed.call with
    | append type data =>
      by_cases closed : file.closed = true
      · simp only [map_cons,call,closed]
        constructor
        · intro all; exact absurd (all [] nil_prefix) (late_append_differs same closed call)
        · intro early
          cases early.1
      · have open_ : file.closed = false := by simpa using closed
        have next := same.call timed fun _ _ _ => open_
        grind only [fileCall_open,same.idle,map_cons,NoLateAppend]
    | close reason extra =>
      have next := same.call timed fun _ _ other => by rw [call] at other; cases other
      have shut : (fileCall file timed).closed = true := by
        by_cases closed : file.closed = true
        · rw [fileCall_closed same.idle closed]; exact closed
        · have written := (fileCall_open same.idle (by simpa using closed) timed).2.2
          rw [call] at written
          exact written.1
      rw [ih next,shut]; simp only [map_cons,call,NoLateAppend]

theorem Same.run (same : Same file redis) {calls : List Timed} (early : NoLateAppend file.closed (calls.map (·.call))) :
    Same (reach fileCall file calls) (reach redisCall redis calls) := by
  have states := (states_iff same calls).mpr early
  induction calls generalizing file redis with
  | nil => exact same
  | cons timed more ih =>
    have next : Same (fileCall file timed) (redisCall redis timed) := by
      refine same.call timed fun type data call => ?_
      simp only [map_cons,call] at early
      exact early.1
    have later : ∀ front, front <+: more →
        SameState (reach fileCall (fileCall file timed) front) (reach redisCall (redisCall redis timed) front) :=
      fun front start => states (timed :: front) ((prefix_cons_inj timed).mpr start)
    exact ih next ((states_iff next more).mp later) later

end

theorem fileRun_views {file : FileStream.Buffer} (idle : file.writing = none) (calls : List Timed) :
    (reach fileCall file calls).log.map view =
      file.log.map view ++ if file.closed then [] else recorded file.seq (calls.map (·.call)) := by
  induction calls generalizing file with
  | nil => simp [recorded]
  | cons timed more ih => grind [reach_cons,fileCall_closed,fileCall_open,recorded]

theorem recorded_sorted (n : Nat) (calls : List Call) :
    (recorded n calls).Pairwise (fun a b => a.1 ≤ b.1) ∧ ∀ v ∈ recorded n calls, (n : Int) ≤ v.1 := by
  induction calls generalizing n with
  | nil => simp [recorded]
  | cons call more ih => cases call <;> grind [recorded,pairwise_cons]

theorem tails_iff {file : FileStream.Buffer} {redis : Redis} (same : Same file redis) {views : List View}
    (logged : file.log.map view = views) (sorted : views.Pairwise fun a b => a.1 ≤ b.1) (fromSeq : Int) (ts : Text) :
    ∃ fileReader redisReader, FileTail file fromSeq fileReader ∧ RedisTail ts redis fromSeq redisReader ∧
      (SameTail fileReader redisReader ↔ EndsWith fromSeq views) := by
  obtain ⟨fileReader,fileTail,fileYields,fileEnds⟩ := file_tail same.sound same.idle fromSeq
  obtain ⟨redisReader,redisTail,redisEnds,redisYields⟩ := redis_tail ts same.counted same.unlocked fromSeq
  refine ⟨fileReader,redisReader,fileTail,redisTail,?_⟩
  have fileViews : fileReader.yielded.map view = sinceView fromSeq views := by
    rw [fileYields,view_since,logged]
  rw [same.views,logged] at redisYields
  rw [endsWith_iff sorted]
  rcases redisYields with ⟨ends,yields⟩ | ⟨running,more,yields⟩
  · grind only [mem_map,SameTail,View.terminal,view,TurnRecord.isTerminal]
  · constructor
    · rintro ⟨lists,-⟩
      rw [fileViews,yields] at lists
      have length := congrArg length lists
      simp at length
    · rintro ⟨⟨v,inside,terminal⟩,-⟩
      rw [running v inside] at terminal; cases terminal

theorem RedisTail.unique {ts : Text} {redis : Redis} {fromSeq : Int} {reader other : RedisStream.Reader}
    (tail : RedisTail ts redis fromSeq reader) (tail' : RedisTail ts redis fromSeq other) : reader = other := by
  obtain ⟨_,_,settles⟩ := tail
  obtain ⟨_,_,settles'⟩ := tail'
  have same := settles.unique settles'
  simp only [Prod.mk.injEq] at same
  exact same.2.2

theorem agree_iff (calls : List Timed) (fromSeq : Int) : Agree calls fromSeq ↔
    NoLateAppend false (calls.map (·.call)) ∧ EndsWith fromSeq (recorded 0 (calls.map (·.call))) := by
  have logged : (fileRun calls).log.map view = recorded 0 (calls.map (·.call)) := fileRun_views rfl calls
  have sorted := (recorded_sorted 0 (calls.map (·.call))).1
  have states := states_iff same_opened calls
  constructor
  · intro agree
    have early := states.mp agree.states
    obtain ⟨fileReader,redisReader,fileTail,redisTail,iff⟩ :=
      tails_iff (same_opened.run early) logged sorted fromSeq []
    exact ⟨early,iff.mp (agree.tails [] fileReader redisReader fileTail redisTail)⟩
  · rintro ⟨early,ends⟩
    refine ⟨states.mpr early,fun ts fileReader redisReader fileTail redisTail => ?_⟩
    obtain ⟨fileOther,redisOther,fileTail',redisTail',iff⟩ :=
      tails_iff (same_opened.run early) logged sorted fromSeq ts
    rw [fileTail.unique fileTail',redisTail.unique redisTail']
    exact iff.mpr ends

theorem tails_settle (calls : List Timed) (fromSeq : Int) (ts : Text) :
    ∃ fileReader redisReader, FileTail (fileRun calls) fromSeq fileReader ∧
      RedisTail ts (redisRun calls) fromSeq redisReader := by
  have file : FileStream.Sound (fileRun calls) ∧ (fileRun calls).writing = none :=
    @always_reach _ _ fileCall (fun file => FileStream.Sound file ∧ file.writing = none)
      (fun file timed known => ⟨fileCall_sound known.1 timed,by
        by_cases closed : file.closed = true
        · rw [fileCall_closed known.2 closed]; exact known.2
        · exact (fileCall_open known.2 (by simpa using closed) timed).1⟩)
      _ ⟨FileStream.sound_opened,rfl⟩ calls
  have redis : Counted (redisRun calls).stream ∧ (redisRun calls).buffer.locked = false :=
    @always_reach _ _ redisCall (fun redis => Counted redis.stream ∧ redis.buffer.locked = false)
      (fun redis timed known => by
        cases call : timed.call with
        | append type data =>
          simp only [redisCall,call]
          exact ⟨known.1.add _,known.2⟩
        | close reason extra =>
          simp only [redisCall,call]
          by_cases closed : redis.buffer.closed = true
          · rw [if_pos closed]; exact known
          · rw [if_neg closed]; exact ⟨known.1.add _,known.2⟩)
      emptyRedis ⟨same_opened.counted,rfl⟩ calls
  obtain ⟨fileReader,fileTail,-⟩ := file_tail file.1 file.2 fromSeq
  obtain ⟨redisReader,redisTail,-⟩ := redis_tail ts redis.1 redis.2 fromSeq
  exact ⟨fileReader,redisReader,fileTail,redisTail⟩

/-- The two buffers agree exactly when nothing is appended to a closed buffer and the
    last record is the first terminal one from `from_seq` on. In any case a reader
    comes to rest on both, so that there are readers to compare. -/
theorem buffers_agree_iff (calls : List Timed) (fromSeq : Int) :
    (Agree calls fromSeq ↔
      NoLateAppend false (calls.map (·.call)) ∧ EndsWith fromSeq (recorded 0 (calls.map (·.call)))) ∧
    ∀ ts, ∃ fileReader redisReader,
      FileTail (fileRun calls) fromSeq fileReader ∧ RedisTail ts (redisRun calls) fromSeq redisReader :=
  ⟨agree_iff calls fromSeq,tails_settle calls fromSeq⟩

def frame : Timed := ⟨.append ['s','s','e'] .nil,[],[]⟩

def completed : Timed := ⟨.close .completed .nil,[],[]⟩

/-- An unfinished turn, a reader past the terminal record, and an append to a closed buffer. -/
theorem buffers_differ : ¬Agree [frame] 0 ∧ ¬Agree [frame,completed] 2 ∧ ¬Agree [frame,completed,frame] 0 := by
  refine ⟨?_,?_,?_⟩
  · rw [agree_iff,endsWith_iff (recorded_sorted 0 _).1]
    rintro ⟨-,ends,-⟩; exact absurd ends (by decide)
  · rw [agree_iff,endsWith_iff (recorded_sorted 0 _).1]
    rintro ⟨-,ends,-⟩; exact absurd ends (by decide)
  · rw [agree_iff]
    rintro ⟨late,-⟩
    simp [frame,completed,NoLateAppend] at late

/-- A turn that is closed once, read from its first record on. -/
example : Agree [frame,completed] 0 := by
  rw [agree_iff,endsWith_iff (recorded_sorted 0 _).1]
  exact ⟨by simp [frame,completed,NoLateAppend],by decide,by decide⟩

end Cowork.BufferAgreement
