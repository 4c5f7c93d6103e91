import Cowork.Transitions
import Cowork.StreamRecords

/-!
The writers of a local turn into its Redis buffer: the producer's frames and its end,
the first take's pump and `clear`, and the model-wait ticker. They stop only at their
awaits, and share the buffer's write lock and the take's lock. A write cancelled between
its number and the stream keeps its number; its command is lost, or arrives at any later
time.
-/
namespace Cowork.TurnWriters
open Transitions JsonText StreamRecords List

/-- What the first take's queue holds: `DELTA`, `DONE` and `CLEARED` frames. -/
inductive Item where
  | delta | done | cleared
deriving DecidableEq

/-- What is written: a frame of the turn by its event type, one of the first take, a `model_wait` frame, or the
    terminal record. -/
inductive Content where
  | frame (eventType : Text)
  | take (item : Item)
  | modelWait
  | terminal (reason : TerminalReason)
deriving DecidableEq

def ASK_USER : Text := "response.ask_user".toList
def COMPLETED : Text := "response.completed".toList
def FAILED : Text := "response.failed".toList

/-- `clears_take(event_type, sse)`. -/
def clearsTake (eventType : Text) : Bool := eventType ∈ [ASK_USER,COMPLETED,FAILED]

def Content.clears : Content → Bool
  | .frame eventType => clearsTake eventType
  | .take .cleared => true
  | _ => false

def Content.isText : Content → Bool
  | .take .delta => true
  | _ => false

def Content.isTerminal : Content → Bool
  | .terminal _ => true
  | _ => false

structure Entry where
  seq : Nat
  content : Content
deriving DecidableEq

/-- Where the producer stands. `rest` is what it writes after the content at hand; `ending`: it has left the frame
    loop. -/
inductive Producer where
  | loop
  /-- In `first_take.clear`, before it holds the take's lock. -/
  | clear (eventType : Text)
  /-- In `first_take.clear`, waiting for the take's tasks to end. -/
  | gather (shown : Bool) (eventType : Text)
  /-- In `append`, before it holds the write lock. -/
  | waiting (content : Content) (rest : List Content) (ending : Bool)
  | sending (entry : Entry) (rest : List Content) (ending : Bool)
  /-- Leaving `model_wait.running`. -/
  | leaving (rest : List Content)
  | done

/-- Where the pump stands in `_send`. It holds the take's lock while it waits for the write lock and sends. -/
inductive Pump where
  | absent
  | idle
  | entering (item : Item)
  | waiting (item : Item)
  | sending (entry : Entry) (item : Item)
  | ended
deriving DecidableEq

/-- Where the ticker stands in `_tick`. -/
inductive Ticker where
  | idle
  | waiting
  | sending (entry : Entry)
  | ended

def Producer.sent : Producer → List Entry
  | .sending entry _ _ => [entry]
  | _ => []

def Pump.sent : Pump → List Entry
  | .sending entry _ => [entry]
  | _ => []

def Ticker.sent : Ticker → List Entry
  | .sending entry => [entry]
  | _ => []

def Pump.holds : Pump → Bool
  | .waiting _ => true
  | .sending _ _ => true
  | _ => false

def Pump.finished : Pump → Bool
  | .absent => true
  | .ended => true
  | _ => false

structure World where
  stream : List Entry
  nextSeq : Nat
  closed : Bool
  loose : List Entry
  producer : Producer
  /-- `event_count`. -/
  frames : Nat
  pump : Pump
  takeClosed : Bool
  shown : Bool
  ticker : Ticker

def start (takeClosed : Bool) : World := ⟨[],0,false,[],.loop,0,.absent,takeClosed,false,.idle⟩

def World.sent (world : World) : List Entry := world.producer.sent ++ world.pump.sent ++ world.ticker.sent

def World.locked (world : World) : Bool := world.sent ≠ []

/-- `FirstTake.cancel`: a pump that holds the take's lock is left alone. -/
def Pump.cancelled : Pump → Pump
  | .absent => .absent
  | .waiting item => .waiting item
  | .sending entry item => .sending entry item
  | _ => .ended

/-- `FirstTake.attach`, after the turn's first frame. -/
def attach (world : World) : World :=
  if world.frames = 1 && !world.takeClosed && world.pump = .absent then { world with pump := .idle } else world

/-- What the frame loop writes for a frame; `response.completed` is kept for the end. -/
def frameWrites (eventType : Text) : List Content := if eventType = COMPLETED then [] else [.frame eventType]

def writeFrames (world : World) : List Content → World
  | [] => { world with producer := .loop }
  | content :: rest => { world with producer := .waiting content rest false }

inductive Action where
  | frame (eventType : Text)
  /-- The frames end, a frame fails, or a Stop cancels the producer. -/
  | leave (frame : Option Text) (reason : TerminalReason)
  | produce
  | produced
  | item (item : Item)
  | finished
  | pump
  | pumped
  | cancelPump
  | tick
  | ticker
  | ticked
  | cancelTicker
  | late (k : Nat)

def stopTicker (world : World) : World :=
  match world.ticker with
  | .sending entry => { world with ticker := .ended, loose := world.loose ++ [entry] }
  | _ => { world with ticker := .ended }

/-- The producer leaves the loop: `running` cancels the ticker. -/
def leave (world : World) (ending : List Content) : World :=
  match world.producer with
  | .waiting _ _ true => world
  | .sending _ _ true => world
  | .done => world
  | .sending entry _ false =>
    { stopTicker { world with loose := world.loose ++ [entry] } with producer := .leaving ending }
  | _ => { stopTicker world with producer := .leaving ending }

def produce (world : World) : World :=
  match world.producer with
  | .clear eventType =>
    if world.pump.holds then world
    else if world.takeClosed then writeFrames world (frameWrites eventType)
    else { world with takeClosed := true, pump := world.pump.cancelled, producer := .gather world.shown eventType }
  | .gather shown eventType =>
    if shown && !world.closed then writeFrames world (.take .cleared :: frameWrites eventType)
    else writeFrames world (frameWrites eventType)
  | .waiting content rest ending =>
    if world.locked then world
    else { world with producer := .sending ⟨world.nextSeq,content⟩ rest ending, nextSeq := world.nextSeq + 1 }
  | .leaving (content :: rest) => { world with producer := .waiting content rest true }
  | _ => world

def produced (world : World) : World :=
  match world.producer with
  | .sending entry rest ending =>
    let written : World :=
      { world with stream := world.stream ++ [entry], closed := world.closed || entry.content.isTerminal }
    match rest with
    | content :: more => { written with producer := .waiting content more ending }
    | [] =>
      if ending then { written with producer := .done, takeClosed := true, pump := world.pump.cancelled }
      else attach { written with producer := .loop }
  | _ => world

def pump (world : World) : World :=
  match world.pump with
  | .entering item =>
    if world.takeClosed || world.closed then { world with pump := .ended } else { world with pump := .waiting item }
  | .waiting item =>
    if world.locked then world
    else { world with pump := .sending ⟨world.nextSeq,.take item⟩ item, nextSeq := world.nextSeq + 1 }
  | _ => world

def pumped (world : World) : World :=
  match world.pump with
  | .sending entry item =>
    let written : World := { world with stream := world.stream ++ [entry] }
    match item with
    | .delta => { written with shown := true, pump := if world.takeClosed then .ended else .idle }
    | .done => { written with pump := if world.takeClosed then .ended else .idle }
    | .cleared => { written with shown := false, takeClosed := true, pump := .ended }
  | _ => world

def step (world : World) : Action → World
  | .frame eventType =>
    match world.producer with
    | .loop =>
      if clearsTake eventType then { world with frames := world.frames + 1, producer := .clear eventType }
      else writeFrames { world with frames := world.frames + 1 } (frameWrites eventType)
    | _ => world
  | .leave frame reason => leave world (frame.toList.map .frame ++ [.terminal reason])
  | .produce => produce world
  | .produced => produced world
  | .item item =>
    match world.pump with
    | .idle => { world with pump := .entering item }
    | _ => world
  | .finished =>
    match world.pump with
    | .idle => { world with pump := .ended }
    | _ => world
  | .pump => pump world
  | .pumped => pumped world
  | .cancelPump =>
    match world.pump with
    | .absent => world
    | .sending entry _ => { world with pump := .ended, loose := world.loose ++ [entry] }
    | _ => { world with pump := .ended }
  | .tick =>
    match world.ticker with
    | .idle => { world with ticker := if world.closed then .ended else .waiting }
    | _ => world
  | .ticker =>
    match world.ticker with
    | .waiting =>
      if world.locked then world
      else { world with ticker := .sending ⟨world.nextSeq,.modelWait⟩, nextSeq := world.nextSeq + 1 }
    | _ => world
  | .ticked =>
    match world.ticker with
    | .sending entry => { world with stream := world.stream ++ [entry], ticker := .idle }
    | _ => world
  | .cancelTicker => stopTicker world
  | .late k =>
    match world.loose[k]? with
    | some entry => { world with stream := world.stream ++ [entry], loose := world.loose.eraseIdx k }
    | none => world

/-- The numbers are 0, 1, 2, ..., nothing follows the terminal record, and no text of
    the take follows a frame that clears it. -/
structure Orderly (stream : List Entry) : Prop where
  numbered : stream.map (·.seq) = List.range stream.length
  last : ∀ entry ∈ stream.dropLast, entry.content.isTerminal = false
  cleared : stream.Pairwise fun earlier later => earlier.content.clears = true → later.content.isText = false

def Producer.ending : Producer → Bool
  | .waiting _ _ ending => ending
  | .sending _ _ ending => ending
  | .leaving _ => true
  | .done => true
  | _ => false

/-- No write is cancelled once it has its number, and the producer leaves its loop only when the pump writes nothing
    more. -/
def Careful (world : World) : Action → Prop
  | .leave _ _ => world.producer.ending = true ∨
      world.producer.sent = [] ∧ world.ticker.sent = [] ∧ world.pump.finished = true
  | .cancelPump => world.pump.sent = []
  | .cancelTicker => world.ticker.sent = []
  | _ => True

instance (world : World) (action : Action) : Decidable (Careful world action) := by
  cases action <;> unfold Careful <;> infer_instance

def Producer.contents : Producer → List Content
  | .waiting content rest _ => content :: rest
  | .sending entry rest _ => entry.content :: rest
  | .leaving rest => rest
  | _ => []

structure Counted (world : World) : Prop where
  numbered : world.stream.map (·.seq) = List.range world.stream.length
  single : world.sent.length ≤ 1
  next : world.nextSeq = world.stream.length + world.sent.length
  claimed : ∀ entry ∈ world.sent, entry.seq = world.stream.length
  loose : world.loose = []

theorem numbered_add {stream : List Entry} (numbered : stream.map (·.seq) = List.range stream.length) {entry : Entry}
    (next : entry.seq = stream.length) : (stream ++ [entry]).map (·.seq) = List.range (stream ++ [entry]).length := by
  simp [numbered,next,range_succ]

theorem start_counted (takeClosed : Bool) : Counted (start takeClosed) where
  numbered := rfl
  single := Nat.zero_le 1
  next := rfl
  claimed := by simp [World.sent,start,Producer.sent,Pump.sent,Ticker.sent]
  loose := rfl

section
variable {world after : World}

theorem Counted.same (counted : Counted world) (stream : after.stream = world.stream)
    (next : after.nextSeq = world.nextSeq) (loose : after.loose = world.loose) (sent : after.sent = world.sent) :
    Counted after where
  numbered := by rw [stream]; exact counted.numbered
  single := by rw [sent]; exact counted.single
  next := by rw [next,stream,sent]; exact counted.next
  claimed := by rw [sent,stream]; exact counted.claimed
  loose := by rw [loose]; exact counted.loose

theorem Counted.claim (counted : Counted world) (unlocked : world.sent = []) (content : Content)
    (stream : after.stream = world.stream) (next : after.nextSeq = world.nextSeq + 1) (loose : after.loose = world.loose)
    (sent : after.sent = [⟨world.nextSeq,content⟩]) : Counted after := by
  obtain ⟨numbered,single,counts,claimed,tight⟩ := counted
  rw [unlocked] at counts
  refine ⟨stream ▸ numbered,by simp [sent],by simp [next,stream,sent,counts],?_,loose ▸ tight⟩
  simp [sent,stream,counts]

theorem Counted.write (counted : Counted world) (entry : Entry) (sending : world.sent = [entry])
    (stream : after.stream = world.stream ++ [entry]) (next : after.nextSeq = world.nextSeq)
    (loose : after.loose = world.loose) (sent : after.sent = []) : Counted after := by
  have seq : entry.seq = world.stream.length := counted.claimed entry (by simp [sending])
  refine ⟨?_,by simp [sent],by simp [next,stream,sent,counted.next,sending],by simp [sent],loose ▸ counted.loose⟩
  rw [stream]
  exact numbered_add counted.numbered seq

theorem Counted.others (counted : Counted world) :
    (world.producer.sent ≠ [] → world.pump.sent = [] ∧ world.ticker.sent = []) ∧
      (world.pump.sent ≠ [] → world.producer.sent = [] ∧ world.ticker.sent = []) ∧
      (world.ticker.sent ≠ [] → world.producer.sent = [] ∧ world.pump.sent = []) := by
  have single := counted.single
  simp only [World.sent] at single
  grind [length_eq_zero_iff]

end

def EndsTerminal (contents : List Content) : Prop :=
  ∃ front reason, contents = front ++ [.terminal reason] ∧ ∀ content ∈ front, content.isTerminal = false

/-- What the producer is about to write holds no text of the take, and a terminal record only as its last part. -/
structure Pending (producer : Producer) : Prop where
  noText : ∀ content ∈ producer.contents, content.isText = false
  inLoop : producer.ending = false → ∀ content ∈ producer.contents, content.isTerminal = false
  atEnd : producer.ending = true → producer = .done ∨ EndsTerminal producer.contents

def Silent (world : World) : Prop :=
  world.pump.finished = true ∧ (world.takeClosed = true ∨ world.producer.ending = true)

structure Inv (world : World) : Prop where
  counted : Counted world
  pending : Pending world.producer
  alone : world.producer.ending = true → world.ticker = .ended ∧ world.pump.finished = true
  running : world.producer ≠ .done → ∀ entry ∈ world.stream, entry.content.isTerminal = false
  last : ∀ entry ∈ world.stream.dropLast, entry.content.isTerminal = false
  takeOver : world.takeClosed = true → world.pump.finished = true
  gathers : ∀ shown eventType, world.producer = .gather shown eventType → world.takeClosed = true
  silent : (∃ content ∈ world.stream.map (·.content) ++ world.producer.contents, content.clears = true) → Silent world
  cleared : world.stream.Pairwise fun earlier later => earlier.content.clears = true → later.content.isText = false
  pumpSends : ∀ entry item, world.pump = .sending entry item → entry.content = .take item
  tickerSends : ∀ entry, world.ticker = .sending entry → entry.content = .modelWait

theorem start_inv (takeClosed : Bool) : Inv (start takeClosed) := by
  refine ⟨start_counted takeClosed,?_,?_,?_,?_,?_,?_,?_,?_,?_,?_⟩
  · constructor <;> simp [start,Producer.contents,Producer.ending]
  all_goals simp [start,Producer.contents,Producer.ending,Pump.finished]

section
variable {world : World}

theorem Inv.movePump (inv : Inv world) {place : Pump} {seq : Nat}
    (counted : Counted { world with pump := place, nextSeq := seq })
    (finished : world.pump.finished = true → place.finished = true)
    (content : ∀ entry item, place = .sending entry item → entry.content = .take item) :
    Inv { world with pump := place, nextSeq := seq } where
  counted := counted
  pending := inv.pending
  alone := fun ending => ⟨(inv.alone ending).1,finished (inv.alone ending).2⟩
  running := inv.running
  last := inv.last
  takeOver := fun closed => finished (inv.takeOver closed)
  gathers := inv.gathers
  silent := fun clears => ⟨finished (inv.silent clears).1,(inv.silent clears).2⟩
  cleared := inv.cleared
  pumpSends := content
  tickerSends := inv.tickerSends

theorem Inv.moveTicker (inv : Inv world) {place : Ticker} {seq : Nat}
    (counted : Counted { world with ticker := place, nextSeq := seq }) (ended : world.ticker = .ended → place = .ended)
    (content : ∀ entry, place = .sending entry → entry.content = .modelWait) :
    Inv { world with ticker := place, nextSeq := seq } where
  counted := counted
  pending := inv.pending
  alone := fun ending => ⟨ended (inv.alone ending).1,(inv.alone ending).2⟩
  running := inv.running
  last := inv.last
  takeOver := inv.takeOver
  gathers := inv.gathers
  silent := inv.silent
  cleared := inv.cleared
  pumpSends := inv.pumpSends
  tickerSends := content

theorem Inv.moveProducer (inv : Inv world) {place : Producer} {seq frames : Nat}
    (counted : Counted { world with producer := place, nextSeq := seq, frames := frames }) (pending : Pending place)
    (same : place.ending = world.producer.ending) (going : world.producer ≠ .done)
    (gathers : ∀ shown eventType, place ≠ .gather shown eventType)
    (clears : ∀ content ∈ place.contents, content.clears = true → Silent world) :
    Inv { world with producer := place, nextSeq := seq, frames := frames } where
  counted := counted
  pending := pending
  alone := fun ending => inv.alone (same ▸ ending)
  running := fun _ => inv.running going
  last := inv.last
  takeOver := inv.takeOver
  gathers := fun shown eventType gather => absurd gather (gathers shown eventType)
  silent := by grind only [Silent,mem_append,inv.silent]
  cleared := inv.cleared
  pumpSends := inv.pumpSends
  tickerSends := inv.tickerSends

theorem Inv.writeFrames (inv : Inv world) (inLoop : world.producer.ending = false) (free : world.producer.sent = [])
    {contents : List Content} (noText : ∀ content ∈ contents, content.isText = false)
    (noEnd : ∀ content ∈ contents, content.isTerminal = false)
    (clears : ∀ content ∈ contents, content.clears = true → Silent world) (frames : Nat) :
    Inv (writeFrames { world with frames := frames } contents) := by
  have going : world.producer ≠ .done := fun done => by simp [done,Producer.ending] at inLoop
  cases contents <;>
    exact inv.moveProducer (inv.counted.same rfl rfl rfl (by simp only [World.sent,free]; rfl))
      ⟨noText,fun _ => noEnd,nofun⟩ inLoop.symm going (by simp) clears

theorem frameWrites_plain (eventType : Text) : ∀ content ∈ frameWrites eventType, content = .frame eventType := by
  grind [frameWrites]

theorem Inv.frame (inv : Inv world) (eventType : Text) : Inv (step world (.frame eventType)) := by
  cases place : world.producer with
  | loop =>
    simp only [step,place]
    have plain := frameWrites_plain eventType
    split
    · refine inv.moveProducer (inv.counted.same rfl rfl rfl ?_) ⟨?_,?_,?_⟩ ?_ ?_ ?_ ?_
      all_goals simp [place,Producer.contents,Producer.ending,World.sent,Producer.sent]
    · refine inv.writeFrames (by rw [place]; rfl) (by rw [place]; rfl) ?_ ?_ ?_ _ <;>
        grind only [Content.isText,Content.isTerminal,Content.clears]
  | _ => simpa only [step,place] using inv

theorem endsTerminal_ending (frame : Option Text) (reason : TerminalReason) :
    EndsTerminal (frame.toList.map .frame ++ [.terminal reason]) := by
  refine ⟨_,reason,rfl,?_⟩
  intro content member
  obtain ⟨eventType,-,rfl⟩ := mem_map.mp member
  rfl

theorem Inv.leaves (inv : Inv world) (going : world.producer ≠ .done) (free : world.producer.sent = [])
    (quiet : world.ticker.sent = []) (finished : world.pump.finished = true) (frame : Option Text) (reason : TerminalReason) :
    Inv { world with ticker := .ended, producer := .leaving (frame.toList.map .frame ++ [.terminal reason]) } where
  counted := inv.counted.same rfl rfl rfl (by simp only [World.sent,free,quiet]; rfl)
  pending := by
    refine ⟨?_,nofun,fun _ => .inr (endsTerminal_ending frame reason)⟩
    grind [Producer.contents,Content.isText]
  alone := fun _ => ⟨rfl,finished⟩
  running := fun _ => inv.running going
  last := inv.last
  takeOver := fun _ => finished
  gathers := by simp
  silent := fun _ => ⟨finished,.inr rfl⟩
  cleared := inv.cleared
  pumpSends := inv.pumpSends
  tickerSends := nofun

theorem stopTicker_quiet (quiet : world.ticker.sent = []) : stopTicker world = { world with ticker := .ended } := by
  grind only [stopTicker,Ticker.sent]

theorem Inv.leave (inv : Inv world) {frame : Option Text} {reason : TerminalReason}
    (careful : Careful world (.leave frame reason)) : Inv (step world (.leave frame reason)) := by
  -- a producer at its end has nobody beside it
  have calm : world.producer.sent = [] → world.ticker.sent = [] ∧ world.pump.finished = true := by
    grind only [cases Inv,Careful,Ticker.sent]
  have leaves : world.producer ≠ .done → world.producer.sent = [] →
      Inv { stopTicker world with producer := .leaving (frame.toList.map .frame ++ [.terminal reason]) } := by
    intro going free
    obtain ⟨quiet,finished⟩ := calm free
    rw [stopTicker_quiet quiet]; exact inv.leaves going free quiet finished frame reason
  cases place : world.producer with
  | waiting content rest ending =>
    cases ending with
    | true => simpa only [step,TurnWriters.leave,place] using inv
    | false => simpa only [step,TurnWriters.leave,place] using leaves (by simp [place]) (by rw [place]; rfl)
  | sending entry rest ending =>
    cases ending with
    | true => simpa only [step,TurnWriters.leave,place] using inv
    | false => simp [Careful,place,Producer.ending,Producer.sent] at careful
  | done => simpa only [step,TurnWriters.leave,place] using inv
  | _ => simpa only [step,TurnWriters.leave,place] using leaves (by simp [place]) (by rw [place]; rfl)

theorem unlocked_sent (unlocked : ¬world.locked = true) :
    world.sent = [] ∧ world.producer.sent = [] ∧ world.pump.sent = [] ∧ world.ticker.sent = [] := by
  simpa [World.locked,World.sent] using unlocked

theorem not_holds {place : Pump} (free : place.holds = false) :
    place.cancelled.finished = true ∧ place.sent = [] ∧ place.cancelled.sent = [] := by
  cases place <;> simp_all [Pump.holds,Pump.cancelled,Pump.finished,Pump.sent]

section
variable (inv : Inv world)
include inv

theorem Inv.produce : Inv (produce world) := by
  have pending := inv.pending
  cases place : world.producer with
  | clear eventType =>
    simp only [TurnWriters.produce,place]
    have plain := frameWrites_plain eventType
    split_ifs with holds closed
    · exact inv
    · refine inv.writeFrames (by rw [place]; rfl) (by rw [place]; rfl) ?_ ?_ ?_ world.frames
      · grind only [Content.isText]
      · grind only [Content.isTerminal]
      · exact fun _ _ _ => ⟨inv.takeOver closed,.inl closed⟩
    · obtain ⟨finished,before,after⟩ := not_holds (by simpa using holds)
      refine ⟨inv.counted.same rfl rfl rfl ?_,⟨nofun,nofun,nofun⟩,nofun,?_,inv.last,fun _ => finished,fun _ _ _ => rfl,
        fun _ => ⟨finished,.inl rfl⟩,inv.cleared,?_,inv.tickerSends⟩
      all_goals grind only [World.sent,Producer.sent,inv.running,Pump.finished]
  | gather shown eventType =>
    have closed := inv.gathers shown eventType place
    have silent : Silent world := ⟨inv.takeOver closed,.inl closed⟩
    have plain := frameWrites_plain eventType
    have written : ∀ contents, (∀ content ∈ contents, content = .take .cleared ∨ content = .frame eventType) →
        Inv (TurnWriters.writeFrames world contents) := by
      intro contents kinds
      refine inv.writeFrames (by rw [place]; rfl) (by rw [place]; rfl) ?_ ?_ (fun _ _ _ => silent) world.frames
      · grind only [Content.isText]
      · grind only [Content.isTerminal]
    simp only [TurnWriters.produce,place]
    split <;> exact written _ (by grind)
  | waiting content rest ending =>
    simp only [TurnWriters.produce,place]
    split
    · exact inv
    · rename_i unlocked
      obtain ⟨free,-,pump,ticker⟩ := unlocked_sent unlocked
      rw [place] at pending
      refine inv.moveProducer (inv.counted.claim free content rfl rfl rfl ?_) ⟨pending.noText,pending.inLoop,?_⟩ ?_ ?_
        (by simp) ?_
      · simp [World.sent,Producer.sent,pump,ticker]
      · exact fun atEnd => .inr ((pending.atEnd atEnd).resolve_left (by simp))
      · simp [place,Producer.ending]
      · simp [place]
      · exact fun other member clears => inv.silent ⟨other,mem_append_right _ (by rw [place]; exact member),clears⟩
  | leaving rest =>
    cases rest with
    | nil => simpa only [TurnWriters.produce,place] using inv
    | cons content more =>
      simp only [TurnWriters.produce,place]
      rw [place] at pending
      refine inv.moveProducer (inv.counted.same rfl rfl rfl ?_) ⟨pending.noText,nofun,?_⟩ ?_ ?_ (by simp) ?_
      · simp only [World.sent,place,Producer.sent]
      · exact fun _ => .inr ((pending.atEnd rfl).resolve_left (by simp))
      · simp [place,Producer.ending]
      · simp [place]
      · exact fun other member clears => inv.silent ⟨other,mem_append_right _ (by rw [place]; exact member),clears⟩
  | _ => simpa only [TurnWriters.produce,place] using inv

theorem Inv.movesPump {place : Pump} (busy : world.pump.finished = false) (free : world.pump.sent = [])
    (quiet : place.sent = []) : Inv { world with pump := place } := by
  grind only [inv.movePump,inv.counted.same,World.sent,Pump.sent]

theorem Inv.pump : Inv (TurnWriters.pump world) := by
  cases place : world.pump with
  | entering item =>
    simp only [TurnWriters.pump,place]
    split <;> exact inv.movesPump (by rw [place]; rfl) (by rw [place]; rfl) rfl
  | waiting item =>
    simp only [TurnWriters.pump,place]
    split
    · exact inv
    · rename_i unlocked
      obtain ⟨free,producer,-,ticker⟩ := unlocked_sent unlocked
      refine inv.movePump (inv.counted.claim free (.take item) rfl rfl rfl ?_) (by simp [place,Pump.finished]) (by simp)
      simp [World.sent,producer,ticker,Pump.sent]
  | _ => simpa only [TurnWriters.pump,place] using inv

theorem Inv.cancelPump (careful : world.pump.sent = []) : Inv (step world .cancelPump) := by
  cases place : world.pump with
  | absent => simpa only [step,place] using inv
  | sending entry item => simp [place,Pump.sent] at careful
  | ended =>
    have same : step world .cancelPump = { world with pump := .ended } := by simp only [step,place]
    rw [same,← place]; exact inv
  | _ =>
    simp only [step,place]
    exact inv.movesPump (by rw [place]; rfl) (by rw [place]; rfl) rfl

theorem Inv.tick : Inv (step world .tick) := by
  grind only [step,inv.moveTicker,inv.counted.same,World.sent,Ticker.sent]

theorem Inv.ticker : Inv (step world .ticker) := by
  cases place : world.ticker with
  | waiting =>
    simp only [step,place]
    split
    · exact inv
    · rename_i unlocked
      obtain ⟨free,producer,pump,-⟩ := unlocked_sent unlocked
      refine inv.moveTicker (inv.counted.claim free .modelWait rfl rfl rfl ?_) (by simp [place]) (by simp)
      simp [World.sent,producer,pump,Ticker.sent]
  | _ => simpa only [step,place] using inv

theorem Inv.cancelTicker (careful : world.ticker.sent = []) : Inv (step world .cancelTicker) := by
  simp only [step,stopTicker_quiet careful]
  exact inv.moveTicker (inv.counted.same rfl rfl rfl (by simp only [World.sent,careful]; rfl)) (fun _ => rfl) nofun

theorem Inv.streamAdd (going : world.producer ≠ .done) (entry : Entry)
    (text : (∃ content ∈ world.stream.map (·.content), content.clears = true) → entry.content.isText = false) :
    (∀ other ∈ (world.stream ++ [entry]).dropLast, other.content.isTerminal = false) ∧
      (world.stream ++ [entry]).Pairwise fun earlier later => earlier.content.clears = true → later.content.isText = false := by
  grind only [dropLast_concat,inv.running,pairwise_append,inv.cleared,pairwise_singleton,
    mem_singleton,mem_map_of_mem]

theorem Inv.runningAdd (going : world.producer ≠ .done) {entry : Entry}
    (open_ : entry.content.isTerminal = false) : ∀ other ∈ world.stream ++ [entry], other.content.isTerminal = false := by
  have running := inv.running going
  grind

theorem Inv.inLoop (busy : world.pump.finished = false ∨ world.ticker ≠ .ended) :
    world.producer.ending = false ∧ world.producer ≠ .done := by
  have alone := inv.alone
  grind only [Producer.ending]

theorem Inv.ticked : Inv (step world .ticked) := by
  cases place : world.ticker with
  | sending entry =>
    simp only [step,place]
    have content := inv.tickerSends entry place
    have sends : world.ticker.sent = [entry] := by rw [place]; rfl
    obtain ⟨producer,pump⟩ := inv.counted.others.2.2 (by simp [sends])
    obtain ⟨inLoop,going⟩ := inv.inLoop (.inr (by simp [place]))
    obtain ⟨last,cleared⟩ := inv.streamAdd going entry fun _ => by rw [content]; rfl
    refine ⟨inv.counted.write entry ?_ rfl rfl rfl ?_,inv.pending,by simp [inLoop],?_,last,inv.takeOver,inv.gathers,?_,
      cleared,inv.pumpSends,nofun⟩
    · simp [World.sent,producer,pump,sends]
    · simp [World.sent,producer,pump,Ticker.sent]
    · exact fun _ => inv.runningAdd going (by rw [content]; rfl)
    · rintro ⟨other,member,clears⟩
      refine inv.silent ⟨other,?_,clears⟩
      grind [Content.clears]
  | _ => simpa only [step,place] using inv

theorem Inv.pumped : Inv (TurnWriters.pumped world) := by
  cases place : world.pump with
  | sending entry item =>
    have content := inv.pumpSends entry item place
    have sends : world.pump.sent = [entry] := by rw [place]; rfl
    have busy : world.pump.finished = false := by rw [place]; rfl
    obtain ⟨producer,ticker⟩ := inv.counted.others.2.1 (by simp [sends])
    obtain ⟨inLoop,going⟩ := inv.inLoop (.inl busy)
    -- a take that is still written has not been cleared
    have onScreen : ¬∃ other ∈ world.stream.map (·.content) ++ world.producer.contents, other.clears = true :=
      fun clears => by simp [(inv.silent clears).1] at busy
    have showing : world.takeClosed = false := by
      by_contra closed
      simp [inv.takeOver (by simpa using closed)] at busy
    obtain ⟨last,cleared⟩ := inv.streamAdd going entry fun ⟨other,member,clear⟩ =>
      absurd ⟨other,mem_append_left _ member,clear⟩ onScreen
    have running := inv.runningAdd going (by rw [content]; rfl : entry.content.isTerminal = false)
    have counted : ∀ next : Pump, next.sent = [] → ∀ shown closed, Counted
        { world with stream := world.stream ++ [entry], shown := shown, takeClosed := closed, pump := next } :=
      fun next quiet shown closed => inv.counted.write entry (by simp [World.sent,producer,ticker,sends]) rfl rfl rfl
        (by simp [World.sent,producer,ticker,quiet])
    have goesOn : ∀ shown, entry.content.clears = false →
        Inv { world with stream := world.stream ++ [entry], shown := shown, pump := .idle } := by
      intro shown plain
      refine ⟨counted .idle rfl shown world.takeClosed,inv.pending,by simp [inLoop],fun _ => running,last,
        by simp [showing],inv.gathers,fun clears => absurd ?_ onScreen,cleared,by simp,inv.tickerSends⟩
      grind
    cases item with
    | delta | done =>
      simp only [TurnWriters.pumped,place,showing,Bool.false_eq_true]
      rw [← showing]; exact goesOn _ (by rw [content]; rfl)
    | cleared =>
      simp only [TurnWriters.pumped,place]
      exact ⟨counted .ended rfl false true,inv.pending,by simp [inLoop],fun _ => running,last,fun _ => rfl,
        fun _ _ _ => rfl,fun _ => ⟨rfl,.inl rfl⟩,cleared,by simp,inv.tickerSends⟩
  | _ => simpa only [TurnWriters.pumped,place] using inv

theorem Inv.attach (loop : world.producer = .loop) : Inv (attach world) := by
  unfold TurnWriters.attach
  split
  · rename_i joins
    simp only [Bool.and_eq_true,decide_eq_true_eq,Bool.not_eq_true'] at joins
    obtain ⟨⟨-,showing⟩,absent⟩ := joins
    have notSilent : ¬Silent world := by simp [Silent,showing,loop,Producer.ending]
    refine ⟨inv.counted.same rfl rfl rfl ?_,inv.pending,?_,inv.running,inv.last,?_,inv.gathers,
      fun clears => absurd (inv.silent clears) notSilent,inv.cleared,by simp,inv.tickerSends⟩
    · simp [World.sent,absent,Pump.sent]
    · simp [loop,Producer.ending]
    · simp [showing]
  · exact inv

end

theorem EndsTerminal.tail {first second : Content} {more : List Content} (ends : EndsTerminal (first :: second :: more)) :
    first.isTerminal = false ∧ EndsTerminal (second :: more) := by
  obtain ⟨front,reason,split,plain⟩ := ends
  cases front <;> grind [EndsTerminal]

theorem Inv.produced (inv : Inv world) : Inv (TurnWriters.produced world) := by
  cases place : world.producer with
  | sending entry rest ending =>
    have sends : world.producer.sent = [entry] := by rw [place]; rfl
    have going : world.producer ≠ .done := by simp [place]
    have ends : world.producer.ending = ending := by rw [place]; rfl
    have contents : world.producer.contents = entry.content :: rest := by rw [place]; rfl
    have pending := inv.pending
    obtain ⟨noText,inLoop,atEnd⟩ := pending
    rw [contents] at noText inLoop atEnd
    rw [ends] at inLoop atEnd
    obtain ⟨pump,ticker⟩ := inv.counted.others.1 (by simp [sends])
    obtain ⟨last,cleared⟩ := inv.streamAdd going entry fun _ => noText entry.content (by simp)
    have sent : world.sent = [entry] := by simp [World.sent,sends,pump,ticker]
    have alone := inv.alone
    have silent := inv.silent
    rw [ends] at alone
    have same : ∀ {more : List Content}, (world.stream ++ [entry]).map (·.content) ++ more =
        world.stream.map (·.content) ++ (entry.content :: more) := by simp
    cases rest with
    | cons content more =>
      simp only [TurnWriters.produced,place]
      have open_ : entry.content.isTerminal = false := by
        cases ending with
        | false => exact inLoop rfl entry.content (by simp)
        | true => exact ((atEnd rfl).resolve_left going).tail.1
      refine ⟨inv.counted.write entry sent rfl rfl rfl ?_,⟨?_,?_,?_⟩,alone,fun _ => inv.runningAdd going open_,last,
        inv.takeOver,by simp,?_,cleared,inv.pumpSends,inv.tickerSends⟩
      · simp [World.sent,Producer.sent,pump,ticker]
      · exact fun other member => noText other (mem_cons_of_mem _ member)
      · exact fun loops other member => inLoop loops other (mem_cons_of_mem _ member)
      · exact fun ended => .inr ((atEnd ended).resolve_left going).tail.2
      grind only [Producer.contents,Silent,Producer.ending]
    | nil =>
      cases ending with
      | true =>
        obtain ⟨ended,finished⟩ := alone rfl
        have still : world.pump.cancelled.finished = true ∧ world.pump.cancelled.sent = [] := by
          cases gone : world.pump <;> simp_all [Pump.finished,Pump.cancelled]
        simp only [TurnWriters.produced,place]
        refine ⟨inv.counted.write entry sent rfl rfl rfl ?_,⟨nofun,nofun,fun _ => .inl rfl⟩,fun _ => ⟨ended,still.1⟩,
          fun notDone => absurd rfl notDone,last,fun _ => still.1,by simp,fun _ => ⟨still.1,.inl rfl⟩,cleared,?_,
          inv.tickerSends⟩
        · simp [World.sent,Producer.sent,ticker,still.2]
        · grind only [Pump.finished]
      | false =>
        simp only [TurnWriters.produced,place]
        refine Inv.attach ?_ rfl
        refine ⟨inv.counted.write entry sent rfl rfl rfl ?_,⟨nofun,nofun,nofun⟩,nofun,
          fun _ => inv.runningAdd going (inLoop rfl entry.content (by simp)),last,inv.takeOver,by simp,?_,cleared,
          inv.pumpSends,inv.tickerSends⟩
        all_goals grind only [World.sent,Producer.sent,Producer.contents,Silent]
  | _ => simpa only [TurnWriters.produced,place] using inv

theorem step_inv (inv : Inv world) {action : Action} (careful : Careful world action) : Inv (step world action) := by
  cases action with
  | frame eventType => exact inv.frame eventType
  | leave frame reason => exact inv.leave careful
  | produce => exact inv.produce
  | produced => exact inv.produced
  | item item | finished =>
    cases place : world.pump with
    | idle =>
      simp only [step,place]
      exact inv.movesPump (by rw [place]; rfl) (by rw [place]; rfl) rfl
    | _ => simpa only [step,place] using inv
  | pump => exact inv.pump
  | pumped => exact inv.pumped
  | cancelPump => exact inv.cancelPump careful
  | tick => exact inv.tick
  | ticker => exact inv.ticker
  | ticked => exact inv.ticked
  | cancelTicker => exact inv.cancelTicker careful
  | late k => simpa [step,inv.counted.loose] using inv

end

/-- The writers of a turn keep its stream orderly in every run in which no write is
    cancelled halfway and the producer leaves its loop only once the pump is over. -/
theorem turn_writers_orderly (takeClosed : Bool) (actions : List Action)
    (careful : Permitted step Careful (start takeClosed) actions) :
    Orderly (reach step (start takeClosed) actions).stream := by
  have inv := @invariant_reach _ _ step Inv Careful (fun _ _ inv ok => step_inv inv ok) _ (start_inv takeClosed) _ careful
  exact ⟨inv.counted.numbered,inv.last,inv.cleared⟩

def CREATED : Text := "response.created".toList
def IN_PROGRESS : Text := "response.in_progress".toList

def opening : List Action := [.frame CREATED,.produce,.produced]

def orderlyRun : List Action :=
  opening ++ [.item .delta,.pump,.pump,.frame IN_PROGRESS,.produce,.pumped,.produce,.tick,.ticker,.produced,.ticker,.ticked,
    .frame ASK_USER,.produce,.produce,.produce,.produced,.produce,.produced,
    .leave (some COMPLETED) .completed,.produce,.produce,.produced,.produce,.produced]

theorem orderlyRun_orderly : Permitted step Careful (start false) orderlyRun ∧
    (reach step (start false) orderlyRun).stream.map (·.content) =
      [.frame CREATED,.take .delta,.frame IN_PROGRESS,.modelWait,.take .cleared,.frame ASK_USER,.frame COMPLETED,
        .terminal .completed] ∧
    Orderly (reach step (start false) orderlyRun).stream :=
  have careful : Permitted step Careful (start false) orderlyRun := by decide +kernel
  ⟨careful,by decide +kernel,turn_writers_orderly false orderlyRun careful⟩

/-- A Stop while the take is being written: the pump finds the buffer open and waits for the lock behind the terminal
    record. -/
def stopRun : List Action :=
  opening ++ [.leave none .cancelled,.produce,.produce,.item .delta,.pump,.produced,.pump,.pumped]

def failRun : List Action :=
  opening ++ [.item .delta,.leave (some FAILED) .error,.produce,.produce,.pump,.produced,.pump,.pumped,.produce,.produced]

/-- A ticker that is cancelled while its command is on the way, and a command that arrives after the end. -/
def tickRun : List Action :=
  opening ++ [.tick,.ticker,.leave none .completed,.produce,.produce,.produced]

/-- Each of the three parts fails. -/
theorem turn_writers_disorderly :
    (reach step (start false) stopRun).stream.map (·.content) = [.frame CREATED,.terminal .cancelled,.take .delta] ∧
    (reach step (start false) failRun).stream.map (·.content) =
      [.frame CREATED,.frame FAILED,.take .delta,.terminal .error] ∧
    (reach step (start false) tickRun).stream.map (·.seq) = [0,2] ∧
    (reach step (start false) (tickRun ++ [.late 0])).stream.map (·.seq) = [0,2,1] ∧
    ¬Orderly (reach step (start false) stopRun).stream ∧ ¬Orderly (reach step (start false) failRun).stream ∧
    ¬Orderly (reach step (start false) tickRun).stream := by
  refine ⟨by decide +kernel,by decide +kernel,by decide +kernel,by decide +kernel,?_,?_,?_⟩
  · intro orderly; exact absurd orderly.last (by decide +kernel)
  · intro orderly; exact absurd orderly.cleared (by decide +kernel)
  · intro orderly; exact absurd orderly.numbered (by decide +kernel)

end Cowork.TurnWriters
