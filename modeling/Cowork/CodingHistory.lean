import Mathlib.Data.List.Nodup
import Cowork.CodingStore

/-!
What a coding session's history keeps. A file holds whole lines and at its end perhaps a
part of one that a crash cut short; memory holds the last events on whole lines. While
that is so (`Holds`), both ways of reading give the events of the file, and a `Careful`
append keeps it so.
-/
namespace Cowork.CodingHistory
open Effects Transitions TextFiles JsonText CodingEvents CodingStore List

/-! ## Events that fit on a line -/

def Sound (event : CodingEvent) : Prop := Unbroken (dump event) ∧ construct event = event

instance (event : CodingEvent) : Decidable (Sound event) :=
  inferInstanceAs (Decidable (Unbroken (dump event) ∧ construct event = event))

variable {event : CodingEvent}

theorem Sound.load (sound : Sound event) : load (dump event) = some event := by
  rw [load_dump,sound.2]

theorem unbroken_append {front back : List Char} : Unbroken (front ++ back) ↔ Unbroken front ∧ Unbroken back := by
  grind only [Unbroken,mem_append]

theorem number_unbroken (number : Number) : Unbroken number.literal := by
  intro c inside
  have numeral : numeric c = true := (all_eq_true.mp number.plain) c inside
  by_contra broken
  rw [Bool.not_eq_false] at broken
  simp only [lineBreak,decide_eq_true_eq,mem_cons,not_mem_nil,or_false] at broken
  rcases broken with rfl | rfl | rfl | rfl | rfl | rfl | rfl | rfl | rfl | rfl <;> exact absurd numeral (by decide)

theorem dump_seq (event : CodingEvent) :
    ∃ front back, ∀ seq, dump (numbered event seq) = front ++ ((Number.ofInt seq).literal ++ back) := by
  refine ⟨'{' :: '"' :: (closedText modelStyle "schema_version".toList ++ ':' :: (modelStyle.gap ++
      ((Number.ofInt event.schemaVersion).literal ++ ',' :: (modelStyle.gap ++ '"' ::
      (closedText modelStyle "seq".toList ++ ':' :: modelStyle.gap))))),
    match toFields event with
    | .cons _ _ (.cons _ _ later) => printFields modelStyle later
    | _ => [],?_⟩
  intro seq
  simp only [numbered,dump,toFields,print,printFields,cons_append,append_assoc]

theorem Sound.numbered (sound : Sound event) (seq : Int) : Sound (CodingStore.numbered event seq) := by
  obtain ⟨front,back,text⟩ := dump_seq event
  have whole : Unbroken (dump (CodingStore.numbered event event.seq)) := sound.1
  grind only [unbroken_append,number_unbroken,construct,CodingStore.numbered,Sound]

theorem unbroken_no_return {cs : List Char} (plain : Unbroken cs) : '\r' ∉ cs :=
  fun inside => absurd (plain _ inside) (by decide)

theorem unbroken_no_newline {cs : List Char} (plain : Unbroken cs) : '\n' ∉ cs :=
  fun inside => absurd (plain _ inside) (by decide)

theorem dump_ne_nil (event : CodingEvent) : dump event ≠ [] := by
  have length := print_length modelStyle (.obj (toFields event))
  intro empty
  rw [← dump,empty] at length
  simp at length

/-! ## What a session holds -/

def stored (whole : List CodingEvent) (part : List Char) : List CodingEvent := whole ++ (load part).toList

def Cut (part : List Char) : Prop := part = [] ∨ ∃ event rest, Sound event ∧ dump event = part ++ rest

structure Holds (store : Store) (session : SessionId) (whole : List CodingEvent) (part : List Char) : Prop where
  bytes : (store.files session).getD [] = encode (lines (whole.map dump) ++ part)
  sound : ∀ event ∈ whole, Sound event
  cut : Cut part
  order : (stored whole part).Pairwise (·.seq < ·.seq)
  positive : ∀ event ∈ stored whole part, 0 < event.seq
  recent : recentOf store session <:+ whole
  memory : part ≠ [] → recentOf store session = []
  last : ∀ last ∈ store.lastSequences session, 0 ≤ last ∧ ∀ event ∈ stored whole part, event.seq ≤ last
  horizon : ∀ horizon ∈ store.horizons session,
    stored whole part ≠ [] ∧ ∀ event ∈ stored whole part, horizon ≤ event.seq

theorem Cut.unbroken {part : List Char} (cut : Cut part) : Unbroken part := by
  rcases cut with rfl | ⟨event,rest,sound,text⟩
  · intro c inside; cases inside
  · have line := sound.1
    rw [text] at line
    exact line.of_append

@[simp] theorem load_nil : load [] = none := rfl
@[simp] theorem stored_nil (whole : List CodingEvent) : stored whole [] = whole := by simp [stored]

section
variable {store : Store} {session : SessionId} {whole : List CodingEvent} {part : List Char}

theorem Holds.lines_unbroken (holds : Holds store session whole part) : ∀ text ∈ whole.map dump, Unbroken text := by
  intro text inside
  obtain ⟨event,member,rfl⟩ := mem_map.mp inside
  exact (holds.sound event member).1

theorem Holds.text_no_return (holds : Holds store session whole part) : '\r' ∉ lines (whole.map dump) ++ part := by
  simp only [mem_append,not_or]
  refine ⟨?_,unbroken_no_return holds.cut.unbroken⟩
  intro inside
  obtain ⟨text,member,found⟩ := mem_flatMap.mp inside
  grind [unbroken_no_return,holds.lines_unbroken]

theorem load_lines (events : List CodingEvent) (sound : ∀ event ∈ events, Sound event) :
    (events.map dump).filterMap load = events := by
  induction events with
  | nil => rfl
  | cons event more ih =>
    rw [map_cons,filterMap_cons,(sound event (by simp)).load,ih (fun other inside => sound other (by simp [inside]))]

section
variable (holds : Holds store session whole part)
include holds

theorem Holds.fileEvents :
    fileEvents store session = .ok (stored whole part) := by
  have bytes := holds.bytes
  unfold CodingStore.fileEvents
  cases file : store.files session with
  | none =>
    rw [file,Option.getD_none] at bytes
    have empty : lines (whole.map dump) ++ part = [] := (encode_injective (bytes.symm.trans encode_nil.symm))
    simp only [append_eq_nil_iff] at empty
    cases whole with
    | nil => rw [empty.2,stored_nil]
    | cons event more => simp [dump_ne_nil] at empty
  | some content =>
    rw [file,Option.getD_some] at bytes
    simp only [bytes,readText_encode holds.text_no_return,splitlines_lines holds.lines_unbroken holds.cut.unbroken,
      filterMap_append,load_lines whole holds.sound,stored]
    split_ifs with empty
    · simp [empty]
    · cases read : load part <;> simp [read]

theorem Holds.eventsAfter (after : Int) :
    eventsAfter store session after = .ok ((stored whole part).filter fun event => after < event.seq) := by
  unfold CodingStore.eventsAfter
  cases memory : recentOf store session with
  | nil => simp only [holds.fileEvents,Except.map]
  | cons first more =>
    simp only [holds.fileEvents,Except.map]
    split_ifs with covered
    · -- what memory does not hold comes before its first event, and was not asked for
      have empty : part = [] := by
        by_contra left
        rw [holds.memory left] at memory; cases memory
      obtain ⟨early,split⟩ := holds.recent
      rw [memory] at split
      have order := holds.order
      rw [empty,stored_nil,← split,pairwise_append] at order
      have skipped : early.filter (fun event => decide (after < event.seq)) = [] := by
        rw [filter_eq_nil_iff]
        intro event inside
        have before := order.2.2 event inside first (by simp)
        simp only [decide_eq_true_eq]
        omega
      rw [empty,stored_nil,← split,filter_append,skipped,nil_append]
    · rfl

theorem Holds.all_events :
    CodingStore.eventsAfter store session 0 = .ok (stored whole part) := by
  rw [holds.eventsAfter]
  congr 1
  rw [filter_eq_self]
  intro event inside
  simpa using holds.positive event inside

end

/-- A change that leaves the session's file, and at most forgets events of it in memory. -/
structure Frame (session : SessionId) (before after : Store) : Prop where
  files : after.files session = before.files session
  recent : recentOf after session <:+ recentOf before session
  last : after.lastSequences session = before.lastSequences session ∨ after.lastSequences session = none
  horizon : after.horizons session = before.horizons session

theorem Holds.frame {after : Store} (holds : Holds store session whole part) (frame : Frame session store after) :
    Holds after session whole part where
  bytes := by rw [frame.files]; exact holds.bytes
  sound := holds.sound
  cut := holds.cut
  order := holds.order
  positive := holds.positive
  recent := frame.recent.trans holds.recent
  memory left := suffix_nil.mp (holds.memory left ▸ frame.recent)
  last := by
    rcases frame.last with same | forgotten
    · rw [same]; exact holds.last
    · rw [forgotten]
      intro last none; cases none
  horizon := by rw [frame.horizon]; exact holds.horizon

def Terminated (bytes : List UInt8) : Prop := bytes = [] ∨ bytes.getLast? = some 10

instance (bytes : List UInt8) : Decidable (Terminated bytes) :=
  inferInstanceAs (Decidable (bytes = [] ∨ bytes.getLast? = some 10))

theorem Holds.no_part (holds : Holds store session whole part) (ends : Terminated ((store.files session).getD [])) :
    part = [] := by
  by_contra left
  have plain : 10 ∉ encode part := by
    rw [newline_mem_encode]; exact unbroken_no_newline holds.cut.unbroken
  have some : encode part ≠ [] := fun empty => left (encode_injective (empty.trans encode_nil.symm))
  rw [holds.bytes,encode_append] at ends
  rcases ends with empty | newline
  · exact some (append_eq_nil_iff.mp empty).2
  · rw [getLast?_append_of_ne_nil _ some] at newline
    exact plain (mem_of_getLast? newline)

/-! ## Appending -/

theorem suffix_lastN {α : Type} (n : Nat) (items : List α) : lastN n items <:+ items := drop_suffix _ _

theorem Holds.recall (holds : Holds store session whole part) {last : Int} {retained : Nat} {ids : List Text}
    (known : recollect store session = .ok (last,retained,ids)) :
    0 ≤ last ∧ ∀ event ∈ stored whole part, event.seq ≤ last := by
  have ends : 0 ≤ (((stored whole part).getLast?.map (·.seq)).getD 0) ∧
      ∀ event ∈ stored whole part, event.seq ≤ ((stored whole part).getLast?.map (·.seq)).getD 0 := by
    rcases eq_nil_or_concat (stored whole part) with empty | ⟨front,final,split⟩
    · simp [empty]
    · have order := holds.order
      have positive := holds.positive final (by rw [split]; simp)
      rw [split,concat_eq_append,pairwise_append] at order
      have final_seq : ((front.concat final).getLast?.map (·.seq)).getD 0 = final.seq := by simp
      rw [split,final_seq]
      refine ⟨by omega,?_⟩
      intro event inside
      rw [concat_eq_append] at inside
      rcases mem_append.mp inside with early | here
      · exact Int.le_of_lt (order.2.2 event early final (by simp))
      · rw [mem_singleton.mp here]
  unfold CodingStore.recollect at known
  rw [holds.all_events] at known
  split at known
  · rename_i cached _ _ there _ _
    cases known; exact holds.last _ there
  · cases known
    cases there : store.lastSequences session with
    | none => simpa using ends
    | some cached => exact holds.last cached there

theorem recentOf_write (other : SessionId) (event : CodingEvent) (retained : Nat) (ids : List Text) :
    recentOf (writeEvent session event retained ids store).2 other <:+
      ((store.recentEvents ++ [(session,event)]).filter fun entry => entry.1 = other).map (·.2) := by
  simp only [recentOf,writeEvent,write_run]
  exact ((suffix_lastN _ _).filter _).map _

theorem Holds.write (holds : Holds store session whole []) (sound : Sound event)
    (positive : 0 < event.seq) (above : ∀ other ∈ whole, other.seq < event.seq)
    (retainedEvent : ∀ horizon ∈ store.horizons session, horizon ≤ event.seq) (retained : Nat) (ids : List Text) :
    Holds (writeEvent session event retained ids store).2 session (whole ++ [event]) [] where
  bytes := by
    have before := holds.bytes
    simp only [append_nil] at before
    simp [writeEvent,before,lines_append]
  sound := forall_mem_append.mpr ⟨holds.sound,forall_mem_singleton.mpr sound⟩
  cut := .inl rfl
  order := by
    have order := holds.order
    rw [stored_nil] at order ⊢
    rw [pairwise_append]
    refine ⟨order,pairwise_singleton _ _,?_⟩
    intro other old new inside
    rw [mem_singleton.mp inside]; exact above other old
  positive := by
    have before := holds.positive
    rw [stored_nil] at before ⊢
    exact forall_mem_append.mpr ⟨before,forall_mem_singleton.mpr positive⟩
  recent := by
    obtain ⟨early,split⟩ := holds.recent
    refine (recentOf_write session event retained ids).trans ⟨early,?_⟩
    simp only [filter_append,map_append,filter_cons,decide_true,if_true,filter_nil,map_cons,map_nil]
    rw [← append_assoc]; exact congrArg (· ++ [event]) split
  memory left := absurd rfl left
  last := by
    intro last known
    simp only [writeEvent,write_run,Function.update_self,Option.mem_def,Option.some.injEq] at known
    subst known
    rw [stored_nil]
    exact ⟨by omega,forall_mem_append.mpr ⟨fun other old => Int.le_of_lt (above other old),by simp⟩⟩
  horizon := by
    intro horizon there
    obtain ⟨-,before⟩ := holds.horizon horizon there
    rw [stored_nil] at before ⊢
    exact ⟨by simp,forall_mem_append.mpr ⟨before,forall_mem_singleton.mpr (retainedEvent horizon there)⟩⟩

theorem frame_write {other : SessionId} (different : other ≠ session) (event : CodingEvent) (retained : Nat)
    (ids : List Text) : Frame other store (writeEvent session event retained ids store).2 where
  files := by simp [writeEvent,different]
  recent := by
    have trimmed := @recentOf_write store session other event retained ids
    simpa [filter_append,Ne.symm different,recentOf] using trimmed
  last := by simp [writeEvent,different]
  horizon := rfl

theorem recentOf_retain (first : CodingEvent) (more : List CodingEvent) :
    recentOf (retain session (first :: more) store) session =
      (recentOf store session).filter fun event => first.seq ≤ event.seq := by
  simp only [recentOf,retain,filter_map,filter_filter]
  congr 1
  apply filter_congr
  intro entry _
  by_cases here : entry.1 = session <;> simp [here]

theorem recentOf_retain_other {other : SessionId} (different : other ≠ session) (kept : List CodingEvent) :
    recentOf (retain session kept store) other = recentOf store other := by
  cases kept with
  | nil => rfl
  | cons first more =>
    simp only [recentOf,retain,filter_filter]
    congr 1
    apply filter_congr
    intro entry _
    by_cases there : entry.1 = other <;> simp [there,different]

theorem filter_tail {events early more : List CodingEvent} {first : CodingEvent}
    (order : (early ++ first :: more).Pairwise (·.seq < ·.seq)) (recent : events <:+ early ++ first :: more) :
    (events.filter fun event => first.seq ≤ event.seq) <:+ first :: more := by
  rw [pairwise_append,pairwise_cons] at order
  obtain ⟨-,⟨rising,-⟩,apart⟩ := order
  have low : ∀ event ∈ early, ¬ first.seq ≤ event.seq := by
    intro event inside
    have := apart event inside first (by simp)
    omega
  have high : (first :: more).filter (fun event => decide (first.seq ≤ event.seq)) = first :: more := by
    rw [filter_eq_self]
    intro event inside
    rcases mem_cons.mp inside with rfl | later
    · simp
    · simpa using Int.le_of_lt (rising event later)
  have none : early.filter (fun event => decide (first.seq ≤ event.seq)) = [] := by
    rw [filter_eq_nil_iff]
    intro event inside
    simpa using low event inside
  have filtered := recent.filter fun event => decide (first.seq ≤ event.seq)
  rwa [filter_append,none,high,nil_append] at filtered

theorem Holds.retain (holds : Holds store session whole []) {early more : List CodingEvent} {first : CodingEvent}
    (split : whole = early ++ first :: more) :
    Holds (retain session (first :: more) store) session (first :: more) [] := by
  have order := holds.order
  rw [stored_nil,split] at order
  have inside : ∀ event ∈ first :: more, event ∈ stored whole [] := by
    intro event member
    rw [stored_nil,split]; exact mem_append_right _ member
  constructor
  case bytes => simp [CodingStore.retain]
  case sound =>
    intro event member; exact holds.sound event (by rw [split]; exact mem_append_right _ member)
  case cut => exact .inl rfl
  case order =>
    rw [stored_nil]; exact (pairwise_append.mp order).2.1
  case positive =>
    rw [stored_nil]; exact fun event member => holds.positive event (inside event member)
  case recent =>
    rw [recentOf_retain]; exact filter_tail order (split ▸ holds.recent)
  case memory => exact fun left => absurd rfl left
  case last =>
    intro n known
    obtain ⟨natural,above⟩ := holds.last n known
    rw [stored_nil]
    exact ⟨natural,fun event member => above event (inside event member)⟩
  case horizon =>
    intro horizon there
    have start : horizon = first.seq := by simpa [CodingStore.retain,eq_comm] using there
    rw [stored_nil,start]
    refine ⟨by simp,forall_mem_cons.mpr ⟨Int.le_refl _,fun event later => Int.le_of_lt ?_⟩⟩
    exact (pairwise_cons.mp (pairwise_append.mp order).2.1).1 event later

theorem frame_retain {other : SessionId} (different : other ≠ session) (kept : List CodingEvent) :
    Frame other store (retain session kept store) where
  files := by simp [CodingStore.retain,different]
  recent := by simp [recentOf_retain_other different]
  last := .inl rfl
  horizon := by cases kept <;> simp [CodingStore.retain,different]

theorem frame_save (other : SessionId) (count : Int) : Frame other store (saveSession session count store).2 where
  files := rfl
  recent := suffix_refl _
  last := .inl rfl
  horizon := rfl

theorem Frame.trans {before between after : Store} (first : Frame session before between)
    (second : Frame session between after) : Frame session before after where
  files := second.files.trans first.files
  recent := second.recent.trans first.recent
  last := by
    rcases second.last with same | none
    · rw [same]; exact first.last
    · exact .inr none
  horizon := second.horizon.trans first.horizon

theorem lastN_split {α : Type} {n : Nat} (positive : 0 < n) {items : List α} (some : items ≠ []) :
    ∃ early first more, items = early ++ first :: more ∧ lastN n items = first :: more := by
  have length : 0 < items.length := length_pos_iff.mpr some
  have left : lastN n items ≠ [] := by
    intro empty
    have := congrArg List.length empty
    simp only [lastN,length_drop,length_nil] at this
    omega
  obtain ⟨first,more,kept⟩ := exists_cons_of_ne_nil left
  refine ⟨items.take (items.length - n),first,more,?_,kept⟩
  rw [← kept,lastN,take_append_drop]

/-- The session holds a tail of its events with the new one; compaction dropped the rest. -/
structure Appended (session : SessionId) (whole : List CodingEvent) (before after : Store) : Prop where
  holds : ∃ kept, Holds after session kept [] ∧ ∀ event ∈ whole, Retained after session event → event ∈ kept
  horizon : ∀ event, Retained after session event → Retained before session event
  others : ∀ other ≠ session, Frame other before after

theorem compactEvents_run (holds : Holds store session whole []) (some : whole ≠ []) :
    ∃ after, compactEvents session store = (.ok (),after) ∧ Appended session whole store after := by
  obtain ⟨early,first,more,split,kept⟩ := lastN_split (n := MAX_EVENTS / 2) (by decide) some
  have read := holds.all_events
  rw [stored_nil] at read
  refine ⟨CodingStore.retain session (first :: more) store,?_,⟨_,holds.retain split,?_⟩,?_,?_⟩
  · have run : compactEvents session store = (.ok (),CodingStore.retain session (lastN (MAX_EVENTS / 2) whole) store) := by
      simp only [compactEvents,bind_run,andThen,look_run,id_eq,attempt_run,read,write_run]
    rw [run,kept]
  · intro event inside retained
    have start : first.seq ≤ event.seq := retained first.seq (by simp [CodingStore.retain])
    rw [split] at inside
    rcases mem_append.mp inside with dropped | there
    · have order := holds.order
      rw [stored_nil,split,pairwise_append] at order
      have before := order.2.2 event dropped first (by simp)
      omega
    · exact there
  · intro event retained horizon there
    have start : first.seq ≤ event.seq := retained first.seq (by simp [CodingStore.retain])
    have low := (holds.horizon horizon there).2 first (by rw [stored_nil,split]; simp)
    omega
  · exact fun other different => frame_retain different _

theorem appendNew_run (holds : Holds store session whole []) (sound : Sound event)
    (positive : 0 < event.seq) (above : ∀ other ∈ whole, other.seq < event.seq)
    (retainedEvent : ∀ horizon ∈ store.horizons session, horizon ≤ event.seq) (retained : Nat) (ids : List Text) :
    ∃ after, appendNew session event retained ids store = (.ok event,after) ∧
      Appended session (whole ++ [event]) store after := by
  have written := holds.write sound positive above retainedEvent retained ids
  have others : ∀ other ≠ session, Frame other store (writeEvent session event retained ids store).2 :=
    fun other different => frame_write different event retained ids
  have wrote : writeEvent session event retained ids store = (.ok (),(writeEvent session event retained ids store).2) := rfl
  generalize (writeEvent session event retained ids store).2 = between at wrote written others
  have horizons : between.horizons = store.horizons := by
    have := congrArg (fun result => result.2.horizons) wrote
    simpa [writeEvent] using this.symm
  by_cases full : overflows between session = true
  · obtain ⟨after,ran,appended⟩ := compactEvents_run written (by simp)
    refine ⟨(saveSession session event.seq after).2,?_,?_,?_,?_⟩
    · unfold appendNew
      refine (andThen_ok wrote).trans ?_
      simp only [bind_run,andThen,look_run,id_eq,if_pos full,ran]
      rfl
    · obtain ⟨kept,still,all⟩ := appended.holds
      exact ⟨kept,still.frame (frame_save session event.seq),all⟩
    · intro other there horizon known
      exact appended.horizon other there horizon (by rw [horizons]; exact known)
    · exact fun other different =>
        ((others other different).trans (appended.others other different)).trans (frame_save other event.seq)
  · refine ⟨(saveSession session event.seq between).2,?_,⟨_,written.frame (frame_save session event.seq),?_⟩,?_,?_⟩
    · unfold appendNew
      refine (andThen_ok wrote).trans ?_
      simp only [bind_run,andThen,look_run,id_eq,if_neg full]
      rfl
    · exact fun _ inside _ => inside
    · intro other there horizon known; exact there horizon (by rw [← horizons] at known; exact known)
    · exact fun other different => (others other different).trans (frame_save other event.seq)

end

/-! ## Every run -/

def Known (world : World) (session : SessionId) : Prop :=
  ∃ whole part, Holds world.store session whole part ∧
    ∀ event, (session,event) ∈ world.returned → Retained world.store session event → event ∈ stored whole part

def writes (store : Store) (session : SessionId) (event : CodingEvent) : Bool :=
  match CodingStore.recollect store session with
  | .ok (_,_,ids) => !redelivered event ids
  | .error _ => false

/-- An event that is appended fits on one line and comes back unchanged, and a new line starts only where the last one
    ended; what a crash leaves of a line ends with a whole character. -/
def Careful (world : World) : Action → Prop
  | .save _ _ => True
  | .append session fields _ =>
    Sound (construct fields) ∧
      (writes world.store session (construct fields) = true → Terminated ((world.store.files session).getD []))
  | .restart => True
  | .crash session fields update kept =>
    Sound (construct fields) ∧
      (writes world.store session (construct fields) = true → Terminated ((world.store.files session).getD [])) ∧
      (decode (((cutAppend session (construct fields) update kept world.store).files session).getD [])).isSome = true

instance (world : World) (action : Action) : Decidable (Careful world action) := by
  cases action <;> unfold Careful <;> infer_instance

section
variable {world : World} {session : SessionId}

variable {after store : Store} {whole : List CodingEvent} {part : List Char}

theorem Known.frame (known : Known world session) (frame : Frame session world.store after) :
    Known ⟨after,world.returned⟩ session := by
  obtain ⟨whole,part,holds,kept⟩ := known
  refine ⟨whole,part,holds.frame frame,?_⟩
  intro event returned retained
  apply kept event returned
  intro horizon there
  exact retained horizon (by rw [frame.horizon]; exact there)

theorem appendEvent_missing (absent : store.counts session = none) (event : CodingEvent) (update : Int → Option Int) :
    appendEvent session event update store = (.error .missingSession,store) := by
  unfold appendEvent
  exact andThen_error (by simp only [loadSession,absent])

def noted (session : SessionId) (ids : List Text) (store : Store) : Store :=
  { store with sourceEventIds := Function.update store.sourceEventIds session (some ids) }

theorem appendEvent_present {count last : Int} {retained : Nat} {ids : List Text}
    (there : store.counts session = some count) (known : CodingStore.recollect store session = .ok (last,retained,ids))
    (event : CodingEvent) (update : Int → Option Int) :
    appendEvent session event update store =
      match update count with
      | none => (.error .updateRaised,noted session ids store)
      | some count =>
        if redelivered event ids then redeliver session event count (noted session ids store)
        else appendNew session (numbered event (max count last + 1)) retained ids (noted session ids store) := by
  have loaded : loadSession session store = (.ok count,store) := by simp only [loadSession,there]
  unfold appendEvent
  refine (andThen_ok loaded).trans ?_
  simp only [bind_run,andThen,look_run,id_eq,attempt_run,known,write_run]
  cases update count with
  | none => rfl
  | some count => simp only [noted]; split <;> rfl

theorem frame_noted (other : SessionId) (ids : List Text) (store : Store) : Frame other store (noted session ids store) where
  files := rfl
  recent := suffix_refl _
  last := .inl rfl
  horizon := rfl

theorem Holds.recalls (holds : Holds store session whole part) :
    ∃ last retained ids, CodingStore.recollect store session = .ok (last,retained,ids) := by
  unfold CodingStore.recollect
  rw [holds.all_events]
  split
  · exact ⟨_,_,_,rfl⟩
  · exact ⟨_,_,_,rfl⟩

theorem redeliver_run (holds : Holds store session whole part) (event : CodingEvent) (count : Int) :
    ∃ after, (∀ other, Frame other store after) ∧
      (redeliver session event count store = (.error .stopIteration,after) ∨
        ∃ item ∈ stored whole part, redeliver session event count store = (.ok item,after)) := by
  refine ⟨(saveSession session count store).2,fun other => frame_save other count,?_⟩
  have saved : Frame session store (saveSession session count store).2 := frame_save session count
  have read := (holds.frame saved).all_events
  have ran : saveSession session count store = (.ok (),(saveSession session count store).2) := rfl
  unfold redeliver
  cases found : (stored whole part).find? fun item => item.sourceEventId = event.sourceEventId with
  | none =>
    refine .inl ((andThen_ok ran).trans ?_)
    simp only [bind_run,andThen,look_run,id_eq,attempt_run,read,found]
    rfl
  | some item =>
    refine .inr ⟨item,mem_of_find?_eq_some found,(andThen_ok ran).trans ?_⟩
    simp only [bind_run,andThen,look_run,id_eq,attempt_run,read,found]
    rfl

theorem Known.elsewhere {other : SessionId} (known : Known world other) (frame : Frame other world.store after)
    (different : other ≠ session) (event : CodingEvent) : Known ⟨after,world.returned ++ [(session,event)]⟩ other := by
  obtain ⟨whole,part,holds,kept⟩ := known.frame frame
  refine ⟨whole,part,holds,?_⟩
  intro item returned retained
  rcases mem_append.mp returned with old | new
  · exact kept item old retained
  · cases mem_singleton.mp new
    exact absurd rfl different

theorem Holds.next (holds : Holds store session whole part) {last : Int} {retained : Nat} {ids : List Text}
    (known : CodingStore.recollect store session = .ok (last,retained,ids)) (count : Int) :
    0 < max count last + 1 ∧ (∀ other ∈ stored whole part, other.seq < max count last + 1) ∧
      ∀ horizon ∈ store.horizons session, horizon ≤ max count last + 1 := by
  obtain ⟨natural,above⟩ := holds.recall known
  refine ⟨by omega,?_,?_⟩
  · intro other inside
    have := above other inside
    omega
  · intro horizon there
    obtain ⟨some,low⟩ := holds.horizon horizon there
    obtain ⟨first,more,split⟩ := exists_cons_of_ne_nil some
    have := low first (by simp [split])
    have := above first (by simp [split])
    omega

theorem known_append (known : ∀ session, Known world session) (fields : CodingEvent) (update : Int → Option Int)
    (careful : Careful world (.append session fields update)) (other : SessionId) :
    Known (step world (.append session fields update)) other := by
  obtain ⟨sound,ends⟩ := careful
  obtain ⟨whole,part,holds,kept⟩ := known session
  cases there : world.store.counts session with
  | none =>
    simp only [step,appendEvent_missing there]
    exact known other
  | some count =>
    obtain ⟨last,retained,ids,recalled⟩ := holds.recalls
    have framed := fun other => @frame_noted session other ids world.store
    have run := appendEvent_present there recalled (construct fields) update
    cases updated : update count with
    | none =>
      simp only [updated] at run
      simp only [step,run]
      exact (known other).frame (framed other)
    | some count =>
      simp only [updated] at run
      by_cases again : redelivered (construct fields) ids = true
      · rw [if_pos again] at run
        obtain ⟨after,frames,outcome⟩ := redeliver_run (holds.frame (framed session)) (construct fields) count
        have frame : ∀ other, Frame other world.store after := fun other => (framed other).trans (frames other)
        rcases outcome with raised | ⟨item,inside,returned⟩
        · simp only [step,run,raised]
          exact (known other).frame (frame other)
        · simp only [step,run,returned]
          by_cases same : other = session
          · subst same
            refine ⟨whole,part,holds.frame (frame other),?_⟩
            intro event returned retained
            rcases mem_append.mp returned with old | new
            · exact kept event old fun horizon there => retained horizon (by rw [(frame other).horizon]; exact there)
            · cases mem_singleton.mp new
              exact inside
          · exact (known other).elsewhere (frame other) same item
      · rw [if_neg again] at run
        have writing : writes world.store session (construct fields) = true := by simp [writes,recalled,again]
        have whole_lines := holds.no_part (ends writing)
        subst whole_lines
        obtain ⟨positive,above,late⟩ := holds.next recalled count
        rw [stored_nil] at above
        obtain ⟨after,returned,appended⟩ := appendNew_run (holds.frame (framed session)) (sound.numbered _) positive above
          late retained ids
        simp only [step,run,returned]
        by_cases same : other = session
        · subst same
          obtain ⟨events,still,all⟩ := appended.holds
          refine ⟨events,[],still,?_⟩
          intro event returned retained
          rw [stored_nil]
          refine all event ?_ retained
          rcases mem_append.mp returned with old | new
          · have before := kept event old (appended.horizon event retained)
            rw [stored_nil] at before
            exact mem_append_left _ before
          · cases mem_singleton.mp new
            simp
        · exact (known other).elsewhere ((framed other).trans (appended.others other same)) same _

/-! ### Crashes -/

theorem frame_restarted (other : SessionId) (store : Store) : Frame other store (restarted store) where
  files := rfl
  recent := nil_suffix
  last := .inr rfl
  horizon := rfl

theorem cut_line (sound : Sound event) {text : List Char} (front : text <+: dump event ++ ['\n']) :
    (Cut text ∧ (load text = none ∨ load text = some event)) ∨ text = dump event ++ ['\n'] := by
  rcases prefix_concat_iff.mp front with whole | ⟨rest,split⟩
  · exact .inr whole
  · left
    refine ⟨.inr ⟨event,rest,sound,split.symm⟩,?_⟩
    by_cases ended : rest = []
    · rw [ended,append_nil] at split
      rw [split]; exact .inr sound.load
    · exact .inl (load_cut event split.symm ended)

theorem kept_front {early line : List Char} {kept : Nat}
    (decodes : (decode (encode early ++ (encode line).take kept)).isSome = true) :
    ∃ text, encode early ++ (encode line).take kept = encode (early ++ text) ∧ text <+: line := by
  obtain ⟨all,decoded⟩ := Option.isSome_iff_exists.mp decodes
  have bytes := encode_decode decoded
  obtain ⟨text,rfl⟩ := prefix_of_encode bytes.symm
  refine ⟨text,bytes.symm,?_⟩
  have longer : encode (early ++ text) ++ (encode line).drop kept = encode (early ++ line) := by
    rw [bytes,append_assoc,take_append_drop,encode_append]
  exact (prefix_append_right_inj early).mp (prefix_of_encode longer)

theorem Holds.crashed {rest : List CodingEvent} (event : CodingEvent) (holds : Holds store session whole [])
    (file : (after.files session).getD [] = encode (lines (rest.map dump) ++ part))
    (memory : recentOf after session = []) (forgotten : after.lastSequences session = none)
    (horizons : after.horizons session = store.horizons session) (sound : ∀ other ∈ rest, Sound other) (cut : Cut part)
    (positive : 0 < event.seq) (above : ∀ other ∈ whole, other.seq < event.seq)
    (late : ∀ horizon ∈ store.horizons session, horizon ≤ event.seq)
    (events : stored rest part = whole ∨ stored rest part = whole ++ [event]) : Holds after session rest part := by
  have order := holds.order
  have before := holds.positive
  have low := holds.horizon
  rw [stored_nil] at order before
  simp only [stored_nil] at low
  have each : ∀ other ∈ stored rest part, other ∈ whole ∨ other = event := by
    intro other inside
    rcases events with same | more
    · rw [same] at inside
      exact .inl inside
    · rw [more] at inside
      simpa using inside
  constructor
  case bytes => exact file
  case sound => exact sound
  case cut => exact cut
  case order =>
    rcases events with same | more
    · rw [same]; exact order
    · rw [more,pairwise_append]
      exact ⟨order,pairwise_singleton _ _,fun other old new inside => by rw [mem_singleton.mp inside]; exact above other old⟩
  case positive =>
    intro other inside
    rcases each other inside with old | rfl
    · exact before other old
    · exact positive
  case recent =>
    rw [memory]; exact nil_suffix
  case memory => exact fun _ => memory
  case last =>
    intro last none
    rw [forgotten] at none; cases none
  case horizon =>
    intro horizon there
    rw [horizons] at there
    obtain ⟨some,first⟩ := low horizon there
    constructor
    · rcases events with same | more
      · rwa [same]
      · simp [more]
    · intro other inside
      rcases each other inside with old | rfl
      · exact first other old
      · exact late horizon there

def withFile (session : SessionId) (bytes : List UInt8) (store : Store) : Store :=
  { store with files := Function.update store.files session (some bytes) }

section
variable (known : ∀ session, Known world session)
include known

theorem known_crash (fields : CodingEvent) (update : Int → Option Int) (kept : Nat)
    (careful : Careful world (.crash session fields update kept)) (other : SessionId) :
    Known (step world (.crash session fields update kept)) other := by
  obtain ⟨sound,ends,decodes⟩ := careful
  obtain ⟨whole,part,holds,returned⟩ := known session
  obtain ⟨last,retained,ids,recalled⟩ := holds.recalls
  have untouched : cutAppend session (construct fields) update kept world.store = world.store →
      Known (step world (.crash session fields update kept)) other := by
    intro same
    simp only [step,same]
    exact (known other).frame (frame_restarted other world.store)
  cases there : world.store.counts session with
  | none => exact untouched (by simp only [cutAppend,there])
  | some count =>
    cases updated : update count with
    | none => exact untouched (by simp only [cutAppend,there,recalled,updated])
    | some count =>
      by_cases again : redelivered (construct fields) ids = true
      · exact untouched (by simp only [cutAppend,there,recalled,updated,if_pos again])
      · have writing : writes world.store session (construct fields) = true := by simp [writes,recalled,again]
        have whole_lines := holds.no_part (ends writing)
        subst whole_lines
        obtain ⟨positive,above,late⟩ := holds.next recalled count
        rw [stored_nil] at above
        have line := sound.numbered (max count last + 1)
        have bytes := holds.bytes
        rw [append_nil] at bytes
        have cutFile : cutAppend session (construct fields) update kept world.store = withFile session
            (encode (lines (whole.map dump)) ++
              (encode (dump (numbered (construct fields) (max count last + 1)) ++ ['\n'])).take kept) world.store := by
          simp only [cutAppend,there,recalled,updated,if_neg again,bytes,withFile]
        have seq : (numbered (construct fields) (max count last + 1)).seq = max count last + 1 := rfl
        rw [← seq] at positive above late
        generalize numbered (construct fields) (max count last + 1) = event at line cutFile positive above late
        rw [cutFile] at decodes
        simp only [withFile,Function.update_self,Option.getD_some] at decodes
        obtain ⟨text,left,front⟩ := kept_front decodes
        rw [left] at cutFile
        simp only [step,cutFile]
        by_cases same : other = session
        · subst same
          have kept_events : ∀ lines left, stored lines left = whole ∨ stored lines left = whole ++ [event] →
              ∀ item, (other,item) ∈ world.returned → Retained world.store other item → item ∈ stored lines left := by
            intro lines left events item old retained
            have here : item ∈ whole := stored_nil whole ▸ returned item old retained
            rcases events with same | same <;> simp [same,here]
          rcases cut_line line front with ⟨cut,read⟩ | whole_line
          · have events : stored whole text = whole ∨ stored whole text = whole ++ [event] :=
              read.imp (fun nothing => by simp [stored,nothing]) (fun event_left => by simp [stored,event_left])
            exact ⟨whole,text,holds.crashed event (by simp [restarted,withFile]) rfl rfl rfl holds.sound cut positive above late
              events,kept_events whole text events⟩
          · exact ⟨whole ++ [event],[],holds.crashed event (by simp [restarted,withFile,whole_line,lines_append]) rfl rfl rfl
              (forall_mem_append.mpr ⟨holds.sound,forall_mem_singleton.mpr line⟩) (.inl rfl) positive above late
              (.inr (stored_nil _)),kept_events _ [] (.inr (stored_nil _))⟩
        · refine (known other).frame (Frame.trans ?_ (frame_restarted other _))
          exact ⟨by simp [withFile,same],suffix_refl _,.inl rfl,rfl⟩

theorem known_step (action : Action) (careful : Careful world action) :
    ∀ session, Known (step world action) session := by
  intro other
  cases action with
  | save session count => exact (known other).frame (frame_save other count)
  | append session fields update => exact known_append known fields update careful other
  | restart => exact (known other).frame (frame_restarted other world.store)
  | crash session fields update kept => exact known_crash known fields update kept careful other

theorem readable_of_known : Readable world := by
  intro session event returned retained after before
  obtain ⟨whole,part,holds,kept⟩ := known session
  refine ⟨_,holds.eventsAfter after,?_,holds.order.filter _⟩
  have inside : event ∈ (stored whole part).filter fun item => after < item.seq := by
    rw [mem_filter]; exact ⟨kept event returned retained,by simpa using before⟩
  have nodup : (stored whole part).Nodup :=
    holds.order.imp fun {a b} less same => by rw [same] at less; exact absurd less (Int.lt_irrefl _)
  exact count_eq_one_of_mem (nodup.filter _) inside

end

theorem known_empty (session : SessionId) : Known ⟨emptyStore,[]⟩ session := by
  refine ⟨[],[],?_,by simp⟩
  constructor
  case bytes => rfl
  case cut => exact .inl rfl
  all_goals simp [emptyStore,recentOf]

end

/-- In every run whose appends are careful, every event that was returned and that compaction has not dropped is read
    back unchanged, once and in order, from memory or from the file. -/
theorem returned_events_are_read_back (actions : List Action)
    (careful : Permitted step Careful ⟨emptyStore,[]⟩ actions) : Readable (reach step ⟨emptyStore,[]⟩ actions) :=
  readable_of_known (@invariant_reach _ _ _ (fun world => ∀ session, Known world session) _
    (fun _ action known careful => known_step known action careful) _ known_empty _ careful)

def sampleSession : SessionId := ⟨"task-1",by decide⟩

def message (text : Text) : CodingEvent :=
  { timestamp := ⟨"2026-01-01T00:00:00Z".toList,by decide⟩, type := .agentMessage, text }

def orderlyRun : List Action :=
  [.save sampleSession 0,.append sampleSession (message "one".toList) some,.crash sampleSession (message "two".toList) some 40]

def beforeCrash : World :=
  step (step ⟨emptyStore,[]⟩ (.save sampleSession 0)) (.append sampleSession (message "one".toList) some)

theorem beforeCrash_cut :
    ((cutAppend sampleSession (construct (message "two".toList)) some 40 beforeCrash.store).files sampleSession).getD [] =
      encode (dump (numbered (construct (message "one".toList)) 1) ++ ['\n'] ++
        (dump (numbered (construct (message "two".toList)) 2)).take 40) := by decide +kernel

theorem orderlyRun_careful : Permitted step Careful ⟨emptyStore,[]⟩ orderlyRun := by
  have first : Sound (construct (message "one".toList)) := by decide +kernel
  have second : Sound (construct (message "two".toList)) := by decide +kernel
  have ended : Terminated ((beforeCrash.store.files sampleSession).getD []) := by decide +kernel
  -- the bytes are compared, not decoded
  have decodes : (decode (((cutAppend sampleSession (construct (message "two".toList)) some 40
      beforeCrash.store).files sampleSession).getD [])).isSome = true := by
    rw [beforeCrash_cut,decode_encode]; rfl
  have crash : Careful beforeCrash (.crash sampleSession (message "two".toList) some 40) :=
    ⟨second,fun _ => ended,decodes⟩
  exact ⟨trivial,⟨first,fun _ => .inl rfl⟩,crash,trivial⟩

theorem orderly_events_are_read_back :
    (reach step ⟨emptyStore,[]⟩ orderlyRun).returned.length = 1 ∧ Readable (reach step ⟨emptyStore,[]⟩ orderlyRun) :=
  ⟨by decide +kernel,returned_events_are_read_back orderlyRun orderlyRun_careful⟩

def separatedRun : List Action :=
  [.save sampleSession 0,.append sampleSession (message "one\u2028two".toList) some,.restart]

def separatedEvent : CodingEvent := numbered (construct (message "one\u2028two".toList)) 1

theorem separatedRun_leaves :
    (reach step ⟨emptyStore,[]⟩ separatedRun).store.files sampleSession =
      some (encode (dump separatedEvent ++ ['\n'])) ∧
    recentOf (reach step ⟨emptyStore,[]⟩ separatedRun).store sampleSession = [] ∧
    (reach step ⟨emptyStore,[]⟩ separatedRun).store.horizons sampleSession = none ∧
    (reach step ⟨emptyStore,[]⟩ separatedRun).returned = [(sampleSession,separatedEvent)] := by decide +kernel

theorem eventsAfter_read {store : Store} {session : SessionId} {bytes : List UInt8} {text : Text}
    (memory : recentOf store session = []) (file : store.files session = some bytes)
    (read : readText bytes = some text) (after : Int) :
    eventsAfter store session after = .ok (((splitlines text).filterMap load).filter fun event => after < event.seq) := by
  simp only [eventsAfter,memory,fileEvents,file,read]
  rfl

theorem separatedRun_events (after : Int) :
    eventsAfter (reach step ⟨emptyStore,[]⟩ separatedRun).store sampleSession after = .ok [] := by
  obtain ⟨file,memory,-⟩ := separatedRun_leaves
  have plain : '\r' ∉ dump separatedEvent ++ ['\n'] := by decide +kernel
  have halves : (splitlines (dump separatedEvent ++ ['\n'])).filterMap load = [] := by decide +kernel
  rw [eventsAfter_read memory file (readText_encode plain) after,halves]
  rfl

theorem line_separator_loses_an_event : ¬ Readable (reach step ⟨emptyStore,[]⟩ separatedRun) := by
  intro readable
  obtain ⟨-,-,none,only⟩ := separatedRun_leaves
  have returned : (sampleSession,separatedEvent) ∈ (reach step ⟨emptyStore,[]⟩ separatedRun).returned := by
    rw [only]; exact mem_singleton_self _
  have retained : Retained (reach step ⟨emptyStore,[]⟩ separatedRun).store sampleSession separatedEvent := by
    intro horizon there
    rw [none] at there; cases there
  obtain ⟨events,read,once,-⟩ := readable _ _ returned retained 0 (by decide)
  rw [separatedRun_events] at read
  cases read
  simp at once

end Cowork.CodingHistory
