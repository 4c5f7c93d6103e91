import Mathlib.Logic.Function.Basic
import Cowork.Effects
import Cowork.Transitions
import Cowork.TextFiles
import Cowork.CodingEvents

/-!
The store of coding sessions: a metadata file and a file of event lines for each, and in
memory the last events of all sessions and what is known of each file. Events are read
from memory when it holds all that are asked for, and from the file otherwise.
-/
namespace Cowork.CodingStore
open Effects TextFiles JsonText CodingEvents

def MAX_EVENTS : Nat := 6000
def MAX_EVENT_FILE_BYTES : Nat := 32 * 1024 * 1024
def MAX_RECENT_EVENTS : Nat := 512

/-- The characters that `_dir` admits. -/
def idChar (c : Char) : Bool := c.isAlphanum || c = '-' || c = '_'

abbrev SessionId := {id : String // id ≠ "" ∧ id.toList.all idChar = true}

/-- The store. Of `session.json` only its `event_count` is kept; the events read no other metadata. -/
structure Store where
  counts : SessionId → Option Int
  files : SessionId → Option (List UInt8)
  recentEvents : List (SessionId × CodingEvent)
  lastSequences : SessionId → Option Int
  retainedCounts : SessionId → Option Nat
  sourceEventIds : SessionId → Option (List Text)
  /-- Not part of the source: the first event that a session's last compaction kept. -/
  horizons : SessionId → Option Int

inductive Fault where
  | missingSession
  | undecodable
  | updateRaised
  | stopIteration

/-- The last `n` items. -/
def lastN {α : Type} (n : Nat) (items : List α) : List α := items.drop (items.length - n)

def recentOf (store : Store) (session : SessionId) : List CodingEvent :=
  (store.recentEvents.filter fun entry => entry.1 = session).map (·.2)

def fileEvents (store : Store) (session : SessionId) : Except Fault (List CodingEvent) :=
  match store.files session with
  | none => .ok []
  | some bytes =>
    match TextFiles.readText bytes with
    | none => .error .undecodable
    | some text => .ok ((splitlines text).filterMap load)

/-- `events_after(session_id, after)`. -/
def eventsAfter (store : Store) (session : SessionId) (after : Int) : Except Fault (List CodingEvent) :=
  match recentOf store session with
  | [] => (fileEvents store session).map (List.filter fun event => after < event.seq)
  | first :: more =>
    if first.seq - 1 ≤ after then .ok ((first :: more).filter fun event => after < event.seq)
    else (fileEvents store session).map (List.filter fun event => after < event.seq)

def sourceId (event : CodingEvent) : Option Text := event.sourceEventId.filter (· ≠ [])

/-- `load_session(session_id).event_count`. -/
def loadSession (session : SessionId) : Prog Store Fault Int := fun store =>
  match store.counts session with
  | some count => (.ok count,store)
  | none => (.error .missingSession,store)

def saveSession (session : SessionId) (count : Int) : Prog Store Fault Unit :=
  write fun store => { store with counts := Function.update store.counts session (some count) }

/-- The last sequence of a session's file, how many events it retains and their source ids, read from the events where
    not known. -/
def recollect (store : Store) (session : SessionId) : Except Fault (Int × Nat × List Text) :=
  match store.lastSequences session,store.retainedCounts session,store.sourceEventIds session with
  | some last,some retained,some ids => .ok (last,retained,ids)
  | last,retained,ids =>
    match eventsAfter store session 0 with
    | .error fault => .error fault
    | .ok stored =>
      .ok (last.getD ((stored.getLast?.map (·.seq)).getD 0),retained.getD stored.length,
        ids.getD (stored.filterMap sourceId))

def redelivered (event : CodingEvent) (ids : List Text) : Bool :=
  match sourceId event with
  | none => false
  | some id => id ∈ ids

def writeEvent (session : SessionId) (event : CodingEvent) (retained : Nat) (ids : List Text) : Prog Store Fault Unit :=
  write fun store =>
    { store with
      files := Function.update store.files session
        (some ((store.files session).getD [] ++ encode (dump event ++ ['\n'])))
      lastSequences := Function.update store.lastSequences session (some event.seq)
      retainedCounts := Function.update store.retainedCounts session (some (retained + 1))
      sourceEventIds := Function.update store.sourceEventIds session (some (ids ++ (sourceId event).toList))
      recentEvents := lastN MAX_RECENT_EVENTS (store.recentEvents ++ [(session,event)]) }

def overflows (store : Store) (session : SessionId) : Bool :=
  MAX_EVENTS < (store.retainedCounts session).getD 0 || MAX_EVENT_FILE_BYTES < ((store.files session).getD []).length

def retain (session : SessionId) (events : List CodingEvent) (store : Store) : Store :=
  { store with
    files := Function.update store.files session (some (encode (lines (events.map dump))))
    retainedCounts := Function.update store.retainedCounts session (some events.length)
    sourceEventIds := Function.update store.sourceEventIds session (some (events.filterMap sourceId))
    recentEvents :=
      match events with
      | [] => store.recentEvents
      | first :: _ => store.recentEvents.filter fun entry => entry.1 ≠ session || first.seq ≤ entry.2.seq
    horizons :=
      match events with
      | [] => store.horizons
      | first :: _ => Function.update store.horizons session (some first.seq) }

def compactEvents (session : SessionId) : Prog Store Fault Unit := do
  let store ← look id
  let events ← attempt (eventsAfter store session 0)
  write (retain session (lastN (MAX_EVENTS / 2) events))

def redeliver (session : SessionId) (event : CodingEvent) (count : Int) : Prog Store Fault CodingEvent := do
  saveSession session count
  let store ← look id
  let stored ← attempt (eventsAfter store session 0)
  match stored.find? fun item => item.sourceEventId = event.sourceEventId with
  | none => raise .stopIteration
  | some item => ret item

def appendNew (session : SessionId) (event : CodingEvent) (retained : Nat) (ids : List Text) :
    Prog Store Fault CodingEvent := do
  writeEvent session event retained ids
  let store ← look id
  if overflows store session then compactEvents session else ret ()
  saveSession session event.seq
  ret event

/-- `event.seq = seq`. -/
def numbered (event : CodingEvent) (seq : Int) : CodingEvent := { event with seq }

/-- `append_event(session_id, event, update)`; `update` may change the count, or raise. -/
def appendEvent (session : SessionId) (event : CodingEvent) (update : Int → Option Int) : Prog Store Fault CodingEvent := do
  let count ← loadSession session
  let store ← look id
  let (last,retained,ids) ← attempt (recollect store session)
  write fun store => { store with sourceEventIds := Function.update store.sourceEventIds session (some ids) }
  match update count with
  | none => raise .updateRaised
  | some count =>
    if redelivered event ids then redeliver session event count
    else appendNew session (numbered event (max count last + 1)) retained ids

def restarted (store : Store) : Store :=
  { store with
    recentEvents := []
    lastSequences := fun _ => none
    retainedCounts := fun _ => none
    sourceEventIds := fun _ => none }

def cutAppend (session : SessionId) (event : CodingEvent) (update : Int → Option Int) (kept : Nat) (store : Store) : Store :=
  match store.counts session,recollect store session with
  | some count,.ok (last,_,ids) =>
    match update count with
    | none => store
    | some count =>
      if redelivered event ids then store
      else
        { store with
          files := Function.update store.files session (some ((store.files session).getD [] ++
            (encode (dump (numbered event (max count last + 1)) ++ ['\n'])).take kept)) }
  | _,_ => store

/-- The store, and the events whose `append_event` returned. -/
structure World where
  store : Store
  returned : List (SessionId × CodingEvent)

/-- What happens to a store. In a crash the old process dies in an append. -/
inductive Action where
  | save (session : SessionId) (count : Int)
  | append (session : SessionId) (fields : CodingEvent) (update : Int → Option Int)
  | restart
  | crash (session : SessionId) (fields : CodingEvent) (update : Int → Option Int) (kept : Nat)

def step (world : World) : Action → World
  | .save session count => ⟨(saveSession session count world.store).2,world.returned⟩
  | .append session fields update =>
    match appendEvent session (construct fields) update world.store with
    | (.ok event,store) => ⟨store,world.returned ++ [(session,event)]⟩
    | (.error _,store) => ⟨store,world.returned⟩
  | .restart => ⟨restarted world.store,world.returned⟩
  | .crash session fields update kept =>
    ⟨restarted (cutAppend session (construct fields) update kept world.store),world.returned⟩

def emptyStore : Store := ⟨fun _ => none,fun _ => none,[],fun _ => none,fun _ => none,fun _ => none,fun _ => none⟩

def Retained (store : Store) (session : SessionId) (event : CodingEvent) : Prop :=
  ∀ horizon ∈ store.horizons session, horizon ≤ event.seq

/-- A returned event that was not dropped is read back unchanged, once and in order, from every point before it. -/
def Readable (world : World) : Prop :=
  ∀ session event, (session,event) ∈ world.returned → Retained world.store session event →
    ∀ after < event.seq, ∃ events, eventsAfter world.store session after = .ok events ∧
      events.count event = 1 ∧ events.Pairwise (·.seq < ·.seq)

end Cowork.CodingStore
