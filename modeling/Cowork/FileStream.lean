import Cowork.Threads
import Cowork.StreamRecords

/-!
The file buffer of a turn: one writer adds a line a record, and any number of readers
follow it. A reader takes what bytes there are, holds back a line without its end, and
waits on the event that the next record replaces, once all its bytes are there.
-/
namespace Cowork.FileStream
open Transitions Threads TextFiles JsonText StreamRecords List

/-- The buffer and its file. The events that `_new_data` has been are counted: those
    before the current one are set. `_done` is set with `_closed`. -/
structure Buffer where
  file : List UInt8
  /-- Bytes of the write in progress that are not in the file yet. -/
  unseen : List UInt8
  /-- A write in progress, and whether it is the terminal record of `close`. -/
  writing : Option Bool
  seq : Nat
  closed : Bool
  current : Nat
  log : List TurnRecord

/-- `FileStreamBuffer(path)`. -/
def opened : Buffer := ⟨[],[],none,0,false,0,[]⟩

inductive Write where
  | append (ts type : Text) (data : Fields)
  | close (ts : Text) (reason : TerminalReason) (extra : Fields)
  | expose (count : Nat)
  | finish

/-- `self._writer.write(...)` of a record. -/
def beginWrite (buffer : Buffer) (ts type : Text) (data : Fields) (closing : Bool) : Buffer :=
  let record : TurnRecord := { seq := buffer.seq, ts, type, data }
  { buffer with unseen := encode (line record ++ ['\n']), writing := some closing, log := buffer.log ++ [record] }

def write : Write → Buffer → Buffer
  | .append ts type data,buffer =>
    if buffer.writing.isSome || buffer.closed then buffer else beginWrite buffer ts type data false
  | .close ts reason extra,buffer =>
    if buffer.writing.isSome || buffer.closed then buffer
    else beginWrite buffer ts reason.type (closeData reason extra) true
  | .expose count,buffer =>
    { buffer with file := buffer.file ++ buffer.unseen.take count, unseen := buffer.unseen.drop count }
  | .finish,buffer =>
    match buffer.writing with
    | none => buffer
    | some closing =>
      { buffer with
        file := buffer.file ++ buffer.unseen
        unseen := []
        writing := none
        seq := buffer.seq + 1
        closed := buffer.closed || closing
        -- `close` replaces the event once more after its append
        current := buffer.current + if closing then 2 else 1 }

/-- Where a reader stands in `tail`. -/
inductive Place where
  | top
  | yielding (waiter : Nat) (closed : Bool) (batch : List TurnRecord) (emittedTerminal : Bool)
  | waiting (waiter : Nat)
  | ended
deriving DecidableEq

/-- A reader: `tail(from_seq)` with its `_NewRecords`. -/
structure Reader where
  fromSeq : Int
  offset : Nat
  held : List UInt8
  yielded : List TurnRecord
  place : Place

def tail (fromSeq : Int) (_ : Buffer) : Reader := ⟨fromSeq,0,[],[],.top⟩

/-- `_NewRecords.read`: the records on the lines that have ended since the last call. -/
def readNew (buffer : Buffer) (reader : Reader) : List TurnRecord :=
  (cutLines (reader.held ++ buffer.file.drop reader.offset)).1.filterMap parseRecord

def advance (buffer : Buffer) (reader : Reader) : Reader :=
  match reader.place with
  | .top =>
    { reader with
      offset := reader.offset + (buffer.file.drop reader.offset).length
      held := (cutLines (reader.held ++ buffer.file.drop reader.offset)).2
      place := .yielding buffer.current buffer.closed (readNew buffer reader) false }
  | .yielding waiter closed (record :: batch) emitted =>
    if record.seq < reader.fromSeq then { reader with place := .yielding waiter closed batch emitted }
    else
      { reader with
        yielded := reader.yielded ++ [record]
        place := .yielding waiter closed batch (emitted || record.isTerminal) }
  | .yielding waiter closed [] emitted => { reader with place := if emitted || closed then .ended else .waiting waiter }
  | .waiting waiter => if waiter < buffer.current || buffer.closed then { reader with place := .top } else reader
  | .ended => reader

def move (_ : Unit) (buffer : Buffer) (reader : Reader) : Buffer × Reader := (buffer,advance buffer reader)

abbrev System := Pool Buffer Reader
abbrev Moment := Turn Int Unit Write

def step (system : System) (moment : Moment) : System := turn tail move write system moment

def fresh : System := ⟨opened,[]⟩

def since (fromSeq : Int) (records : List TurnRecord) : List TurnRecord := records.filter fun record => fromSeq ≤ record.seq

def seen (buffer : Buffer) (reader : Reader) : List UInt8 := buffer.file.take reader.offset

def linesRead (buffer : Buffer) (reader : Reader) : Nat := (cutLines (seen buffer reader)).1.length

theorem cutLines_front {texts : List (List Char)} (whole : ∀ text ∈ texts, 10 ∉ encode text) {front : List UInt8}
    (start : front <+: encode (lines texts)) :
    (cutLines front).1 = (texts.take (cutLines front).1.length).map encode := by
  induction texts generalizing front with
  | nil =>
    have empty : front = [] := prefix_nil.mp start
    simp [empty,cutLines]
  | cons text more ih =>
    have split : encode (lines (text :: more)) = encode text ++ 10 :: encode (lines more) := by
      rw [lines_cons,encode_append]; rfl
    rw [split] at start
    rcases prefix_or_prefix_of_prefix start (prefix_append _ _) with short | ⟨rest,rfl⟩
    · have part : 10 ∉ front := fun inside => whole text (by simp) (short.subset inside)
      simp [cutLines_part part]
    · have later := (prefix_append_right_inj _).mp start
      cases rest <;> grind [cutLines_part,cutLines_line]

theorem length_le_cutLines {texts : List (List Char)} (whole : ∀ text ∈ texts, 10 ∉ encode text) {bytes : List UInt8}
    (start : encode (lines texts) <+: bytes) : texts.length ≤ (cutLines bytes).1.length := by
  induction texts generalizing bytes with
  | nil => simp
  | cons text more ih =>
    obtain ⟨rest,rfl⟩ := start
    have split : encode (lines (text :: more)) ++ rest = encode text ++ 10 :: (encode (lines more) ++ rest) := by
      rw [lines_cons,encode_append,append_assoc]; rfl
    grind [cutLines_line]

theorem log_lines_whole (log : List TurnRecord) : ∀ text ∈ log.map line, 10 ∉ encode text := by
  intro text inside
  obtain ⟨record,-,rfl⟩ := mem_map.mp inside
  exact line_no_newline record

theorem parse_log (log : List TurnRecord) : ((log.map line).map encode).filterMap parseRecord = log := by
  induction log with
  | nil => rfl
  | cons record more ih => simp only [map_cons,filterMap_cons,parseRecord_line,ih]

/-- The file and the bytes not in it yet are the lines of the records; those of finished appends are in the file. -/
structure Sound (buffer : Buffer) : Prop where
  bytes : buffer.file ++ buffer.unseen = encode (lines (buffer.log.map line))
  numbers : buffer.log.map (·.seq) = (List.range buffer.log.length).map Int.ofNat
  idle : buffer.writing = none → buffer.unseen = [] ∧ buffer.log.length = buffer.seq
  busy : buffer.writing ≠ none → buffer.log.length = buffer.seq + 1 ∧ buffer.closed = false
  finished : encode (lines ((buffer.log.take buffer.seq).map line)) <+: buffer.file
  closing : buffer.closed = true ∨ buffer.writing = some true →
    ∃ front final, buffer.log = front ++ [final] ∧ final.isTerminal = true

structure Grows (before after : Buffer) : Prop where
  file : before.file <+: after.file
  log : before.log <+: after.log
  current : before.current ≤ after.current
  seq : after.current = before.current → after.seq = before.seq
  closed : before.closed = true → after.closed = true ∧ after.log = before.log

structure Reads (buffer : Buffer) (reader : Reader) : Prop where
  inside : reader.offset ≤ buffer.file.length
  held : reader.held = (cutLines (seen buffer reader)).2

def got (buffer : Buffer) (reader : Reader) : List TurnRecord := buffer.log.take (linesRead buffer reader)

def Current (buffer : Buffer) (reader : Reader) (waiter : Nat) : Prop :=
  waiter ≤ buffer.current ∧ (waiter = buffer.current → buffer.seq ≤ linesRead buffer reader)

def Follows (buffer : Buffer) (reader : Reader) : Place → Prop
  | .top => reader.yielded = since reader.fromSeq (got buffer reader) ∧ ∀ record ∈ reader.yielded, record.isTerminal = false
  | .yielding waiter closed batch emitted =>
    reader.yielded ++ since reader.fromSeq batch = since reader.fromSeq (got buffer reader) ∧
      (emitted = true ↔ ∃ record ∈ reader.yielded, record.isTerminal = true) ∧ Current buffer reader waiter ∧
      (closed = true → buffer.closed = true ∧ buffer.log.length ≤ linesRead buffer reader)
  | .waiting waiter =>
    reader.yielded = since reader.fromSeq (got buffer reader) ∧ (∀ record ∈ reader.yielded, record.isTerminal = false) ∧
      Current buffer reader waiter
  | .ended =>
    reader.yielded = since reader.fromSeq (got buffer reader) ∧
      ((∃ record ∈ reader.yielded, record.isTerminal = true) ∨
        buffer.closed = true ∧ buffer.log.length ≤ linesRead buffer reader)

structure Following (buffer : Buffer) (reader : Reader) : Prop where
  reads : Reads buffer reader
  follows : Follows buffer reader reader.place

section
variable {buffer after : Buffer} {reader : Reader}

theorem Sound.front (sound : Sound buffer) (reader : Reader) : seen buffer reader <+: encode (lines (buffer.log.map line)) := by
  rw [← sound.bytes]
  exact ( take_prefix _ _).trans (prefix_append _ _)

theorem Sound.records (sound : Sound buffer) (reader : Reader) :
    (cutLines (seen buffer reader)).1.filterMap parseRecord = got buffer reader := by
  rw [cutLines_front (log_lines_whole _) (sound.front reader),← map_take,parse_log]
  rfl

theorem Grows.seen (grows : Grows buffer after) (reads : Reads buffer reader) : seen after reader = seen buffer reader := by
  obtain ⟨more,file⟩ := grows.file
  rw [FileStream.seen,FileStream.seen,← file,take_append_of_le_length reads.inside]

theorem Sound.linesRead_le (sound : Sound buffer) (reader : Reader) : linesRead buffer reader ≤ buffer.log.length := by
  have lengths := congrArg List.length (cutLines_front (log_lines_whole _) (sound.front reader))
  simp only [length_map,length_take] at lengths
  unfold linesRead
  omega

theorem Following.stable (sound : Sound buffer) (following : Following buffer reader) (grows : Grows buffer after) :
    Following after reader := by
  have same := grows.seen following.reads
  have lines : linesRead after reader = linesRead buffer reader := by rw [linesRead,same,linesRead]
  have records : got after reader = got buffer reader := by
    obtain ⟨more,log⟩ := grows.log
    rw [got,got,lines,← log,take_append_of_le_length (sound.linesRead_le reader)]
  have current : ∀ waiter, Current buffer reader waiter → Current after reader waiter := by
    grind only [Current,cases Grows]
  have ends : buffer.closed = true ∧ buffer.log.length ≤ linesRead buffer reader →
      after.closed = true ∧ after.log.length ≤ linesRead after reader := by
    rintro ⟨closed,all⟩
    obtain ⟨still,log⟩ := grows.closed closed
    rw [log,lines]; exact ⟨still,all⟩
  refine ⟨⟨following.reads.inside.trans grows.file.length_le,by rw [same]; exact following.reads.held⟩,?_⟩
  have follows := following.follows
  cases place : reader.place <;> grind only [Follows]

theorem since_append (fromSeq : Int) (front back : List TurnRecord) :
    since fromSeq (front ++ back) = since fromSeq front ++ since fromSeq back := filter_append _ _

theorem Following.read (sound : Sound buffer) (following : Following buffer reader) (place : reader.place = .top) :
    Following buffer (advance buffer reader) := by
  have inside := following.reads.inside
  have follows := following.follows
  have whole : seen buffer reader ++ buffer.file.drop reader.offset = buffer.file := take_append_drop _ _
  have cut := cutLines_append (seen buffer reader) (buffer.file.drop reader.offset)
  rw [whole,← following.reads.held] at cut
  have all : seen buffer (advance buffer reader) = buffer.file := by
    simp only [seen,advance,place,length_drop]
    exact take_of_length_le (by omega)
  have batch : got buffer (advance buffer reader) = got buffer reader ++ readNew buffer reader := by
    rw [← sound.records,← sound.records,all,cut,filterMap_append,readNew]
  have finished : buffer.seq ≤ linesRead buffer (advance buffer reader) := by
    have cuts := length_le_cutLines (log_lines_whole _) sound.finished
    rw [linesRead,all]
    rw [length_map,length_take] at cuts
    by_cases idle : buffer.writing = none
    · have := sound.idle idle
      omega
    · have := sound.busy idle
      omega
  refine ⟨⟨?_,?_⟩,?_⟩
  · simp only [advance,place,length_drop]
    omega
  · rw [all,cut]; simp only [advance,place]
  · have next : (advance buffer reader).place = .yielding buffer.current buffer.closed (readNew buffer reader) false := by
      simp only [advance,place]
    have yielded : (advance buffer reader).yielded = reader.yielded := by simp only [advance,place]
    have start : (advance buffer reader).fromSeq = reader.fromSeq := by simp only [advance,place]
    rw [next]
    refine ⟨?_,?_,⟨Nat.le_refl _,fun _ => finished⟩,?_⟩
    all_goals grind only [since_append,cases Sound,Follows]

theorem Following.advance (sound : Sound buffer) (following : Following buffer reader) :
    Following buffer (advance buffer reader) := by
  have reads := following.reads
  have follows := following.follows
  cases place : reader.place with
  | top => exact following.read sound place
  | yielding waiter closed batch emitted =>
    rw [place] at follows
    obtain ⟨yields,terminal,wait,last⟩ := follows
    cases batch with
    | nil =>
      simp only [since,filter_nil,append_nil] at yields
      by_cases stop : (emitted || closed) = true
      · simp only [FileStream.advance,place,if_pos stop]
        refine ⟨⟨reads.inside,reads.held⟩,yields,?_⟩
        rcases Bool.or_eq_true_iff.mp stop with yes | yes
        · exact .inl (terminal.mp yes)
        · exact .inr (last yes)
      · simp only [FileStream.advance,place,if_neg stop]
        refine ⟨⟨reads.inside,reads.held⟩,yields,?_,wait⟩
        grind only
    | cons record batch =>
      by_cases early : record.seq < reader.fromSeq
      · have skipped : since reader.fromSeq (record :: batch) = since reader.fromSeq batch := by
          simp [since,Int.not_le.mpr early]
        simp only [FileStream.advance,place,if_pos early]
        rw [skipped] at yields
        exact ⟨⟨reads.inside,reads.held⟩,yields,terminal,wait,last⟩
      · have taken : since reader.fromSeq (record :: batch) = record :: since reader.fromSeq batch := by
          simp [since,Int.not_lt.mp early]
        simp only [FileStream.advance,place,if_neg early]
        rw [taken] at yields
        refine ⟨⟨reads.inside,reads.held⟩,?_,?_,wait,last⟩
        · rw [append_assoc]; exact yields
        grind only [mem_append,mem_singleton]
  | waiting waiter =>
    rw [place] at follows
    by_cases set : (decide (waiter < buffer.current) || buffer.closed) = true
    · simp only [FileStream.advance,place,if_pos set]
      exact ⟨⟨reads.inside,reads.held⟩,follows.1,follows.2.1⟩
    · simp only [FileStream.advance,place,if_neg set]
      exact following
  | ended =>
    simp only [FileStream.advance,place]
    exact following

theorem numbers_append {log : List TurnRecord} (numbers : log.map (·.seq) = (List.range log.length).map Int.ofNat)
    (record : TurnRecord) (next : record.seq = log.length) :
    (log ++ [record]).map (·.seq) = (List.range (log ++ [record]).length).map Int.ofNat := by
  simp [numbers,range_succ,next]

theorem Sound.beginWrite (sound : Sound buffer) (idle : buffer.writing = none) (open_ : buffer.closed = false)
    (ts type : Text) (data : Fields) (closing : Bool) (terminal : closing = true → isTerminalType type = true) :
    Sound (beginWrite buffer ts type data closing) where
  bytes := by
    have bytes := sound.bytes
    rw [(sound.idle idle).1,append_nil] at bytes
    simp [FileStream.beginWrite,bytes,lines_append]
  numbers := numbers_append sound.numbers _ (by rw [(sound.idle idle).2])
  idle no := by simp [FileStream.beginWrite] at no
  busy _ := ⟨by simp [FileStream.beginWrite,(sound.idle idle).2],open_⟩
  finished := by
    have finished := sound.finished
    simp only [FileStream.beginWrite]
    rwa [take_append_of_le_length (by rw [(sound.idle idle).2])]
  closing := by
    rintro (closed | ends)
    · simp [FileStream.beginWrite,open_] at closed
    · refine ⟨_,_,rfl,?_⟩
      simp only [FileStream.beginWrite,Option.some.injEq] at ends
      exact terminal ends

theorem grows_beginWrite (open_ : buffer.closed = false) (ts type : Text) (data : Fields) (closing : Bool) :
    Grows buffer (beginWrite buffer ts type data closing) where
  file := prefix_refl _
  log := prefix_append _ _
  current := Nat.le_refl _
  seq _ := rfl
  closed yes := by rw [open_] at yes; cases yes

theorem Grows.refl (buffer : Buffer) : Grows buffer buffer :=
  ⟨prefix_refl _,prefix_refl _,Nat.le_refl _,fun _ => rfl,fun yes => ⟨yes,rfl⟩⟩

theorem Sound.expose (sound : Sound buffer) (count : Nat) : Sound (write (.expose count) buffer) where
  bytes := by simpa [write] using sound.bytes
  numbers := sound.numbers
  idle none := by
    have before := sound.idle none
    simp [write,before.1,before.2]
  busy := sound.busy
  finished := sound.finished.trans (prefix_append _ _)
  closing := sound.closing

theorem Sound.finish (sound : Sound buffer) {closing : Bool} (writing : buffer.writing = some closing) :
    Sound (write .finish buffer) := by
  constructor
  all_goals grind [write,cases Sound]

theorem grows_finish (sound : Sound buffer) {closing : Bool} (writing : buffer.writing = some closing) :
    Grows buffer (write .finish buffer) where
  file := by simp [write,writing]
  log := by simp [write,writing]
  current := by simp [write,writing]
  seq same := by
    simp only [write,writing] at same
    split at same <;> omega
  closed yes := by
    rw [(sound.busy (by rw [writing]; simp)).2] at yes
    cases yes

theorem sound_write (sound : Sound buffer) (event : Write) : Sound (write event buffer) ∧ Grows buffer (write event buffer) := by
  have free : ¬ (buffer.writing.isSome || buffer.closed) = true → buffer.writing = none ∧ buffer.closed = false := by
    intro no
    simpa using no
  cases event with
  | append ts type data => grind only [write,Grows.refl,sound.beginWrite,grows_beginWrite]
  | close ts reason extra => grind only [write,Grows.refl,sound.beginWrite,reason_terminal,grows_beginWrite]
  | expose count =>
    refine ⟨sound.expose count,?_⟩
    exact ⟨prefix_append _ _,prefix_refl _,Nat.le_refl _,fun _ => rfl,fun yes => ⟨yes,rfl⟩⟩
  | finish => grind only [write,Grows.refl,sound.finish,grows_finish]

end

theorem sound_opened : Sound opened := by
  constructor <;> simp [opened]

theorem following_tail (buffer : Buffer) (fromSeq : Int) : Following buffer (tail fromSeq buffer) := by
  refine ⟨⟨Nat.zero_le _,rfl⟩,?_,?_⟩
  · simp [tail,got,linesRead,seen,cutLines,since]
  · simp [tail]

theorem safe : Safe tail move write Sound (fun buffer (_ : Nat) reader => Following buffer reader)
    (fun before after => Sound before ∧ Grows before after) (fun _ _ _ => True) (fun _ _ => True) where
  begins buffer _ fromSeq _ := following_tail buffer fromSeq
  moves buffer _ _ _ sound own _ := ⟨sound,own.advance sound,sound,Grows.refl buffer⟩
  outsides _ event sound _ := ⟨(sound_write sound event).1,sound,(sound_write sound event).2⟩
  stable _ _ _ _ change own := own.stable change.1 change.2

theorem holds_reach (moments : List Moment) :
    Holds Sound (fun buffer (_ : Nat) reader => Following buffer reader) (reach step fresh moments) := by
  have start : Holds Sound (fun buffer (_ : Nat) reader => Following buffer reader) fresh :=
    ⟨sound_opened,fun k reader found => by simp [fresh] at found⟩
  refine safe.reach start (permitted_always ?_ fresh moments)
  intro system moment
  cases moment <;> simp [Allowed]

/-- What a reader gives: once ended, the records from its number on up to a terminal record at least, or all, if only
    the last is terminal; while it waits for the current event, every record whose append has returned. A replaced
    event is set, so a reader that waits for one goes on. -/
structure Replays (buffer : Buffer) (reader : Reader) : Prop where
  ended : reader.place = .ended → ∃ read, read <+: buffer.log ∧ reader.yielded = since reader.fromSeq read ∧
    (read = buffer.log ∧ buffer.closed = true ∨ ∃ record ∈ reader.yielded, record.isTerminal = true)
  complete : reader.place = .ended → (∀ record ∈ buffer.log.dropLast, record.isTerminal = false) →
    reader.yielded = since reader.fromSeq buffer.log ∧
      ∃ front final, buffer.log = front ++ [final] ∧ final.isTerminal = true
  numbered : buffer.log.map (·.seq) = (List.range buffer.log.length).map Int.ofNat
  awake : ∀ waiter, reader.place = .waiting waiter →
    (waiter = buffer.current → since reader.fromSeq (buffer.log.take buffer.seq) <+: reader.yielded) ∧
      (waiter ≠ buffer.current → (advance buffer reader).place = .top)

theorem front_whole {α : Type} {read log : List α} (front : read <+: log) {a : α} (inside : a ∈ read) (last : a ∉ log.dropLast) :
    read = log := by
  obtain ⟨rest,split⟩ := front
  grind

theorem Following.replays {buffer : Buffer} {reader : Reader} (sound : Sound buffer) (following : Following buffer reader) :
    Replays buffer reader := by
  have follows := following.follows
  have front : got buffer reader <+: buffer.log := take_prefix _ _
  have outcome : reader.place = .ended → reader.yielded = since reader.fromSeq (got buffer reader) ∧
      (got buffer reader = buffer.log ∧ buffer.closed = true ∨ ∃ record ∈ reader.yielded, record.isTerminal = true) := by
    intro ended
    rw [ended] at follows
    obtain ⟨yields,terminal | ⟨closed,all⟩⟩ := follows
    · exact ⟨yields,.inr terminal⟩
    · exact ⟨yields,.inl ⟨take_of_length_le all,closed⟩⟩
  constructor
  case ended =>
    intro ended; exact ⟨got buffer reader,front,outcome ended⟩
  case complete =>
    intro ended lastOnly
    obtain ⟨yields,⟨all,closed⟩ | ⟨record,member,terminal⟩⟩ := outcome ended
    · rw [all] at yields
      exact ⟨yields,sound.closing (.inl closed)⟩
    · have inside : record ∈ got buffer reader := by
        rw [yields] at member
        exact mem_of_mem_filter member
      grind only [front_whole,ne_nil_of_mem,dropLast_append_getLast,mem_append,mem_singleton]
  case numbered => exact sound.numbers
  case awake =>
    intro waiter waiting
    rw [waiting] at follows
    obtain ⟨yields,-,old,covered⟩ := follows
    constructor
    · intro now
      rw [yields]; exact ( take_prefix_take_left (covered now)).filter _
    grind only [FileStream.advance]

/-- Every reader of a file stream, at every moment of every run. -/
theorem file_stream_replays (moments : List Moment) (k : Nat) (reader : Reader)
    (found : (reach step fresh moments).threads[k]? = some reader) : Replays (reach step fresh moments).shared reader :=
  ((holds_reach moments).each k reader found).replays (holds_reach moments).state

/-- A reader reads the first byte of a two-byte letter alone, waits, and reads on to the end. -/
def splitRun : List Moment :=
  [.begin 0,.outside (.append [] ['s','s','e'] (.cons ['x'] (.str ['\u00e9']) .nil)),.outside (.expose 52),.advance 0 (),
    .advance 0 (),.outside (.expose 1),.outside .finish,.advance 0 (),.advance 0 (),.advance 0 (),.advance 0 (),
    .outside (.close [] .completed .nil),.outside .finish,.advance 0 (),.advance 0 (),.advance 0 (),.advance 0 ()]

theorem splitRun_replays : ∃ reader, (reach step fresh splitRun).threads[0]? = some reader ∧ reader.place = .ended ∧
    reader.yielded.length = 2 ∧ Replays (reach step fresh splitRun).shared reader :=
  ⟨_,rfl,by decide +kernel,by decide +kernel,file_stream_replays splitRun 0 _ rfl⟩

def earlyRun : List Moment :=
  [.begin 0,.outside (.append [] "Done".toList .nil),.outside .finish,.advance 0 (),.advance 0 (),.advance 0 (),
    .outside (.append [] ['s','s','e'] .nil),.outside .finish]

/-- Its reader has ended without the record after the terminal one. -/
theorem reader_ends_before_the_last_record : ∃ reader, (reach step fresh earlyRun).threads[0]? = some reader ∧
    reader.place = .ended ∧ reader.yielded ≠ since reader.fromSeq (reach step fresh earlyRun).shared.log :=
  ⟨_,rfl,by decide +kernel,by decide +kernel⟩

section
open Function
variable {buffer : Buffer} {reader : Reader} {k : Nat}

def Ends (buffer : Buffer) (reader : Reader) : Prop := ∃ last, last.place = .ended ∧ Settles (advance buffer) reader last

theorem Ends.next (ends : Ends buffer (advance buffer reader)) : Ends buffer reader := by
  obtain ⟨last,ended,settles⟩ := ends
  exact ⟨last,ended,settles.next⟩

theorem ends_ended (ended : reader.place = .ended) : Ends buffer reader :=
  ⟨reader,ended,⟨0,rfl⟩,by simp [advance,ended]⟩

theorem ends_yielding {waiter : Nat} {seen emitted : Bool} {batch : List TurnRecord}
    (waits : seen = false → ∀ r : Reader, r.place = .waiting waiter → Ends buffer r)
    (place : reader.place = .yielding waiter seen batch emitted) : Ends buffer reader := by
  induction batch generalizing reader emitted with
  | nil =>
    by_cases done : (emitted || seen) = true
    · exact .next (ends_ended (by simp [advance,place,done]))
    · exact .next (waits (by simp_all) _ (by simp [advance,place,done]))
  | cons record more ih =>
    obtain ⟨emitted',stepped⟩ : ∃ e, (advance buffer reader).place = .yielding waiter seen more e := by
      by_cases below : record.seq < reader.fromSeq <;> simp [advance,place,below]
    exact .next (ih stepped)

theorem ends_closed (closed : buffer.closed = true) (reader : Reader) : Ends buffer reader := by
  have top (r : Reader) (place : r.place = .top) : Ends buffer r := by
    have read : (advance buffer r).place = .yielding buffer.current true (readNew buffer r) false := by
      simp [advance,place,closed]
    exact .next (ends_yielding (by simp) read)
  have waiting (r : Reader) (waiter : Nat) (place : r.place = .waiting waiter) : Ends buffer r :=
    .next (top _ (by simp [advance,place,closed]))
  cases place : reader.place with
  | top => exact top reader place
  | yielding waiter => exact ends_yielding (fun _ r => waiting r waiter) place
  | waiting waiter => exact waiting reader waiter place
  | ended => exact ends_ended place

theorem write_closed (sound : Sound buffer) (closed : buffer.closed = true) (event : Write) : write event buffer = buffer := by
  have idle : buffer.writing = none := by
    by_contra busy
    simp [(sound.busy busy).2] at closed
  have unseen := (sound.idle idle).1
  cases buffer
  cases event <;> simp_all [write]

def stepsOf (k : Nat) (moments : List Moment) : Nat := moments.countP fun
  | .advance j _ => j = k
  | _ => false

theorem reach_closed {system : System} (sound : Sound system.shared) (closed : system.shared.closed = true)
    (found : system.threads[k]? = some reader) (more : List Moment) :
    (reach step system more).threads[k]? = some ((advance system.shared)^[stepsOf k more] reader) := by
  induction more generalizing system reader with
  | nil => exact found
  | cons moment rest ih =>
    cases moment with
    | begin fromSeq => exact ih sound closed (by grind [step,turn])
    | outside event =>
      have same : step system (.outside event) = system := by simp [step,turn,write_closed sound closed]
      rw [reach_cons,same,ih sound closed found]; rfl
    | advance j data =>
      have shared : (step system (.advance j data)).shared = system.shared := by grind [step,turn,move]
      have moved : (step system (.advance j data)).threads[k]? =
          some (if j = k then advance system.shared reader else reader) := by grind [step,turn,move]
      rw [reach_cons,ih (shared ▸ sound) (shared ▸ closed) moved,shared]
      by_cases own : j = k <;> simp [stepsOf,own]

/-- Whatever goes on beside it, a reader of a closed stream has ended after some number of steps of its own. -/
theorem closed_stream_is_read_out (moments : List Moment) (k : Nat) (reader : Reader)
    (found : (reach step fresh moments).threads[k]? = some reader)
    (closed : (reach step fresh moments).shared.closed = true) : ∃ n, ∀ more, n ≤ stepsOf k more →
      ∃ last, (reach step fresh (moments ++ more)).threads[k]? = some last ∧ last.place = .ended ∧
        Replays (reach step fresh (moments ++ more)).shared last := by
  obtain ⟨last,ended,⟨n,comes⟩,still⟩ := ends_closed closed reader
  refine ⟨n,fun more enough => ?_⟩
  have there : (reach step fresh (moments ++ more)).threads[k]? = some last := by
    rw [reach_append,reach_closed (holds_reach moments).state closed found,← Nat.sub_add_cancel enough,
      iterate_add_apply,comes,iterate_fixed still]
  have holds := holds_reach (moments ++ more)
  exact ⟨last,there,ended,(holds.each k last there).replays holds.state⟩

theorem splitRun_is_read_out : ∃ n, ∀ more, n ≤ stepsOf 0 more →
    ∃ last, (reach step fresh (splitRun.take 14 ++ more)).threads[0]? = some last ∧ last.place = .ended ∧
      Replays (reach step fresh (splitRun.take 14 ++ more)).shared last :=
  closed_stream_is_read_out _ 0 _ rfl (by decide +kernel)

end

end Cowork.FileStream
