import Cowork.RedisStream

/-!
A Redis stream ends once, with its numbers in order, if readers give a turn up one at a
time and only when its producer is gone. The look at the last entry and the write after
it are two commands, so two readers can both end it, and a slow producer writes on after
the end (`redis_stream_ends_twice`).
-/
namespace Cowork.RedisEnding
open Transitions JsonText StreamRecords RedisStream List Function

def ending : Place → Bool
  | .lock => true
  | .send _ => true
  | _ => false

def NoneEnding (world : World) : Prop := ∀ reader ∈ world.readers, ending reader.place = false

/-- No appended type is terminal; once a reader ends the turn the producer is gone; a reader looks at the last entry
    of an unfinished stream only when no other is about to write; and the stream expires only when nobody is. -/
def Careful (world : World) : Action → Prop
  | .append _ type _ => world.abandoned = false ∧ isTerminalType type = false
  | .close _ _ _ => world.abandoned = false
  | .acquire => world.abandoned = false
  | .execute => world.abandoned = false
  | .tail _ _ => True
  | .advance k _ =>
    ∀ reader ∈ world.readers[k]?, reader.place = .check → endsTerminal world.stream = false → NoneEnding world
  | .expire => (world.producer = .done ∨ world.abandoned = true) ∧ NoneEnding world

instance (world : World) : Decidable (NoneEnding world) :=
  inferInstanceAs (Decidable (∀ reader ∈ world.readers, _))

instance (world : World) (action : Action) : Decidable (Careful world action) := by
  cases action <;> unfold Careful <;> infer_instance

def Producing (records : List TurnRecord) (buffer : Buffer) : Producer → Prop
  | .idle => buffer.nextSeq = records.length ∧ Running records
  | .waiting _ type _ closing =>
    buffer.nextSeq = records.length ∧ Running records ∧ (closing = false → isTerminalType type = false)
  | .sending record closing =>
    record.seq = records.length ∧ buffer.nextSeq = records.length + 1 ∧ Running records ∧
      (closing = false → record.isTerminal = false)
  | .done => True

def Ready (world : World) (reader : Reader) : Prop :=
  match reader.place with
  | .lock => world.abandoned = true ∧ Running world.stream.records ∧
      (world.buffers reader.buffer).nextSeq = world.stream.records.length
  | .send record => world.abandoned = true ∧ Running world.stream.records ∧ record.seq = world.stream.records.length
  | _ => True

structure Inv (world : World) : Prop where
  once : EndsOnce world.stream.records
  producing : world.abandoned = false → Producing world.stream.records (world.buffers 0) world.producer
  ready : ∀ reader ∈ world.readers, Ready world reader
  alone : ∀ (i j : Nat) (first second : Reader), world.readers[i]? = some first → world.readers[j]? = some second →
    ending first.place = true → ending second.place = true → i = j

theorem start_inv : Inv start where
  once := ⟨rfl,by simp [start,Running,Stream.records]⟩
  producing := by
    intro _; exact ⟨rfl,by simp [start,Running,Stream.records]⟩
  ready := by simp [start]
  alone := by simp [start]

variable {world : World} {reader : Reader} {ts : Text} {k : Nat}

theorem ready_of_not_ending (elsewhere : ending reader.place = false) : Ready world reader := by
  grind only [Ready,ending]

theorem Ready.abandons (ready : Ready world reader) (ending : ending reader.place = true) : world.abandoned = true := by
  grind only [Ready,ending]

theorem Inv.noneEnding (inv : Inv world) (produced : world.abandoned = false) : NoneEnding world := by
  intro reader member
  by_contra ending
  have gone := (inv.ready reader member).abandons (by simpa using ending)
  rw [produced] at gone
  cases gone

theorem inv_of_noneEnding (quiet : NoneEnding world) (once : EndsOnce world.stream.records)
    (producing : world.abandoned = false → Producing world.stream.records (world.buffers 0) world.producer) :
    Inv world where
  once := once
  producing := producing
  ready := fun reader member => ready_of_not_ending (quiet reader member)
  alone := by
    intro i _ first _ found _ ending _
    rw [quiet first (mem_of_getElem? found)] at ending; cases ending

theorem append_inv (inv : Inv world) {type : Text} {data : Fields} (careful : Careful world (.append ts type data)) :
    Inv (step world (.append ts type data)) := by
  obtain ⟨produced,open_⟩ := careful
  have producing := inv.producing produced
  cases place : world.producer with
  | idle =>
    simp only [step,place]
    rw [place] at producing
    exact inv_of_noneEnding (inv.noneEnding produced) inv.once (fun _ => ⟨producing.1,producing.2,fun _ => open_⟩)
  | _ => simpa only [step,place] using inv

theorem close_inv (inv : Inv world) {reason : TerminalReason} {extra : Fields} (produced : world.abandoned = false) :
    Inv (step world (.close ts reason extra)) := by
  have quiet := inv.noneEnding produced
  grind only [step,inv_of_noneEnding,cases Inv,Producing,NoneEnding]

theorem acquire_inv (inv : Inv world) (produced : world.abandoned = false) : Inv (acquire world) := by
  have producing := inv.producing produced
  cases place : world.producer with
  | waiting ts type data closing =>
    rw [place] at producing
    obtain ⟨next,running,open_⟩ := producing
    by_cases locked : (world.buffers 0).locked
    · simpa only [acquire,place,if_pos locked] using inv
    · simp only [acquire,place,if_neg locked]
      refine inv_of_noneEnding (inv.noneEnding produced) inv.once (fun _ => ?_)
      exact ⟨congrArg Int.ofNat next,congrArg (· + 1) next,running,open_⟩
  | _ => simpa only [acquire,place] using inv

theorem execute_inv (inv : Inv world) (produced : world.abandoned = false) : Inv (execute world) := by
  have producing := inv.producing produced
  cases place : world.producer with
  | sending record closing =>
    rw [place] at producing
    obtain ⟨seq,next,running,open_⟩ := producing
    simp only [execute,place]
    refine inv_of_noneEnding (inv.noneEnding produced) ?_ (fun _ => ?_)
    · rw [records_add]; exact endsOnce_add inv.once.1 running seq
    grind [records_add,Producing,Running]
  | _ => simpa only [execute,place] using inv

theorem consume_not_ending (entries : List Entry) (reader : Reader) : ending (consume entries reader).place = false := by
  induction entries generalizing reader <;> grind only [consume,ending]

/-- A reader's step leaves the stream alone, decides to end an unfinished one, takes or awaits the lock, or writes the
    terminal record. -/
inductive Moves (stream : Stream) (buffer : Buffer) (reader : Reader) : Stream × Buffer × Reader → Prop where
  | quiet (next : Reader) (elsewhere : ending next.place = false) :
    Moves stream buffer reader (stream,buffer,next)
  | decides (checks : reader.place = .check) (unended : endsTerminal stream = false) :
    Moves stream buffer reader
      (stream,{ buffer with nextSeq := following stream, closed := false },{ reader with place := .lock })
  | waits (at_ : reader.place = .lock) : Moves stream buffer reader (stream,buffer,reader)
  | locks (at_ : reader.place = .lock) (record : TurnRecord) (seq : record.seq = buffer.nextSeq) :
    Moves stream buffer reader
      (stream,{ buffer with nextSeq := buffer.nextSeq + 1, locked := true },{ reader with place := .send record })
  | writes (record : TurnRecord) (at_ : reader.place = .send record) :
    Moves stream buffer reader
      (stream.add record,{ buffer with closed := true, locked := false },{ reader with place := .report })

theorem readerStep_moves (ts : Text) (stream : Stream) (buffer : Buffer) (reader : Reader) :
    Moves stream buffer reader (readerStep ts stream buffer reader) := by
  unfold readerStep
  cases place : reader.place with
  | replay => exact .quiet _ (consume_not_ending _ _)
  | live =>
    cases new : newEntries stream reader with
    | nil =>
      refine .quiet _ ?_
      by_cases finished : IDLE_BLOCKS ≤ reader.idle + 1
      all_goals simp [finished,ending]
    | cons entry more => exact .quiet _ (consume_not_ending _ _)
  | check =>
    by_cases ended : endsTerminal stream
    · simp only [if_pos ended]
      exact .quiet _ rfl
    · simp only [if_neg ended]
      exact .decides place (by simpa using ended)
  | lock =>
    by_cases locked : buffer.locked
    · simp only [if_pos locked]
      exact .waits place
    · simp only [if_neg locked]
      exact .locks place _ rfl
  | send record => exact .writes record place
  | report => exact .quiet _ rfl
  | ended => exact .quiet _ (by rw [place]; rfl)

/-- No reader but the one at `k` is about to write. -/
def OthersIdle (world : World) (k : Nat) : Prop :=
  ∀ (j : Nat) (other : Reader), j ≠ k → world.readers[j]? = some other → ending other.place = false

theorem Inv.othersIdle (inv : Inv world) (found : world.readers[k]? = some reader)
    (ending : ending reader.place = true) : OthersIdle world k := by
  intro j other apart there
  by_contra busy
  exact apart (inv.alone j k other reader there found (by simpa using busy) ending)

theorem NoneEnding.othersIdle (quiet : NoneEnding world) (k : Nat) : OthersIdle world k :=
  fun _ other _ found => quiet other (mem_of_getElem? found)

theorem inv_of_othersIdle {after : World} {next : Reader} (idle : OthersIdle world k)
    (moved : after.readers = world.readers.set k next) (once : EndsOnce after.stream.records)
    (producing : after.abandoned = false → Producing after.stream.records (after.buffers 0) after.producer)
    (ready : Ready after next) : Inv after where
  once := once
  producing := producing
  ready := by
    intro other member
    obtain ⟨j,found⟩ := mem_iff_getElem?.mp member
    rw [moved] at found
    rcases set_found found with ⟨-,same⟩ | ⟨apart,there⟩
    · rw [same]; exact ready
    · exact ready_of_not_ending (idle j other apart there)
  alone := by grind [OthersIdle]

theorem quiet_inv (inv : Inv world) {next : Reader} (elsewhere : ending next.place = false) :
    Inv { world with readers := world.readers.set k next } where
  once := inv.once
  producing := inv.producing
  ready := by grind [ready_of_not_ending,Ready,cases Inv]
  alone := by grind [cases Inv]

theorem not_lock_of_not_ending {place : Place} (elsewhere : ending place = false) : place ≠ .lock := by
  intro lock
  rw [lock] at elsewhere
  cases elsewhere

theorem advance_inv (inv : Inv world) (careful : Careful world (.advance k ts)) : Inv (step world (.advance k ts)) := by
  cases found : world.readers[k]? with
  | none => simpa only [step,found] using inv
  | some reader =>
    have member := mem_of_getElem? found
    have ready := inv.ready reader member
    simp only [step,found]
    have moves := readerStep_moves ts world.stream (world.buffers reader.buffer) reader
    generalize readerStep ts world.stream (world.buffers reader.buffer) reader = moved at moves
    cases moves with
    | quiet next elsewhere => simpa [not_lock_of_not_ending elsewhere] using quiet_inv inv elsewhere
    | decides checks unended =>
      have running := running_of_open inv.once unended
      refine inv_of_othersIdle ((careful reader found checks unended).othersIdle k) rfl inv.once (by simp) ?_
      refine ⟨by simp,running,?_⟩
      simp only [update_self]
      exact following_length inv.once.1
    | waits at_ =>
      have abandoned := ready.abandons (by rw [at_]; rfl)
      have same : world.readers.set k reader = world.readers := by
        obtain ⟨_,is⟩ := List.getElem?_eq_some_iff.mp found
        rw [← is,set_getElem_self]
      have still : (world.abandoned || decide (reader.place = .lock)) = world.abandoned := by simp [abandoned]
      rw [same,still,update_eq_self]; exact inv
    | locks at_ record seq =>
      have idle := inv.othersIdle found (by rw [at_]; rfl)
      grind only [Ready,inv_of_othersIdle,inv.once]
    | writes record at_ =>
      have idle := inv.othersIdle found (by rw [at_]; rfl)
      unfold Ready at ready
      rw [at_] at ready
      obtain ⟨abandoned,running,next⟩ := ready
      refine inv_of_othersIdle idle rfl ?_ (by simp [abandoned]) trivial
      rw [records_add]; exact endsOnce_add inv.once.1 running next

theorem step_inv (inv : Inv world) {action : Action} (careful : Careful world action) : Inv (step world action) := by
  cases action with
  | append ts type data => exact append_inv inv careful
  | close ts reason extra => exact close_inv inv careful
  | acquire => exact acquire_inv inv careful
  | execute => exact execute_inv inv careful
  | tail buffer fromSeq =>
    have same : step world (.tail buffer fromSeq) =
      { world with readers := world.readers ++ [⟨buffer,fromSeq,0,0,[],.replay⟩] } := rfl
    have index : ∀ (i : Nat) (other : Reader),
        (world.readers ++ [⟨buffer,fromSeq,0,0,[],.replay⟩])[i]? = some other → ending other.place = true →
        world.readers[i]? = some other := by
      intro i other found ending
      rcases append_found found with old | ⟨-,new⟩
      · exact old
      · rw [new] at ending; cases ending
    rw [same]
    refine ⟨inv.once,inv.producing,?_,?_⟩
    all_goals grind only [mem_append,mem_singleton,Ready,cases Inv]
  | advance k ts => exact advance_inv inv careful
  | expire =>
    obtain ⟨finished,quiet⟩ := careful
    refine inv_of_noneEnding quiet ⟨rfl,by simp [step,Running,Stream.records]⟩ (fun produced => ?_)
    grind only [step,Producing]

/-- A stream whose readers end it only after its producer is gone and one at a time
    ends once, with its numbers in order. -/
theorem redis_stream_ends_once (actions : List Action) (careful : Permitted step Careful start actions) :
    EndsOnce (reach step start actions).stream.records :=
  (@invariant_reach _ _ step Inv Careful (fun _ _ inv ok => step_inv inv ok) _ start_inv _ careful).once

def produce (type : Text) : List Action := [.append [] type .nil,.acquire,.execute]

def idles (k : Nat) : List Action := List.replicate (1 + IDLE_BLOCKS) (.advance k [])

/-- A producer that dies after its first record, and two readers, one after the other. -/
def orderlyRun : List Action :=
  produce ['s','s','e'] ++ .tail 1 0 :: idles 0 ++ List.replicate 4 (.advance 0 []) ++ [.tail 2 0,.advance 1 []]

theorem orderlyRun_ends_once : Permitted step Careful start orderlyRun ∧
    (reach step start orderlyRun).stream.records.map (·.type) = [['s','s','e'],TerminalReason.interrupted.type] ∧
    EndsOnce (reach step start orderlyRun).stream.records :=
  have careful : Permitted step Careful start orderlyRun := by decide +kernel
  ⟨careful,by decide +kernel,redis_stream_ends_once orderlyRun careful⟩

def twoReaders : List Action :=
  produce ['s','s','e'] ++ .tail 1 0 :: .tail 2 0 :: idles 0 ++ idles 1 ++
    [.advance 0 [],.advance 1 [],.advance 0 [],.advance 0 [],.advance 1 [],.advance 1 []]

def slowProducer : List Action :=
  produce ['s','s','e'] ++ .tail 1 0 :: idles 0 ++ List.replicate 3 (.advance 0 []) ++ produce ['s','s','e']

/-- Two readers write two terminal records under one number, and a slow producer
    writes after the terminal record, with its number. -/
theorem redis_stream_ends_twice :
    (reach step start twoReaders).stream.records.map (fun record => (record.seq,record.isTerminal)) =
      [(0,false),(1,true),(1,true)] ∧
    (reach step start slowProducer).stream.records.map (fun record => (record.seq,record.isTerminal)) =
      [(0,false),(1,true),(1,false)] ∧
    ¬EndsOnce (reach step start twoReaders).stream.records ∧
    ¬EndsOnce (reach step start slowProducer).stream.records := by
  refine ⟨?_,?_,?_,?_⟩ <;> decide +kernel

end Cowork.RedisEnding
