import Cowork.RunRegistry

/-!
The registry admits turns one after another (`turns_admitted`). A turn whose buffer is
closed does not hold up its successor, so its task may still run when another turn has
taken its place in the map, where `shutdown` does not see it (`shutdown_misses_a_task`).
-/
namespace Cowork.RunAdmission
open Transitions RunRegistry List Function

structure Admitted (world : World) : Prop where
  single : ∀ (i j : Nat) (first second : Turn), world.turns[i]? = some first → world.turns[j]? = some second →
    first.conversation = second.conversation → first.answering = true → second.answering = true → i = j
  /-- `shutdown` finds every turn that runs with its buffer open. -/
  seen : ∀ (i : Nat) (turn : Turn), world.turns[i]? = some turn → turn.running = true → turn.closed = false →
    i ∈ inFlight world
  noTurn : ∀ (k : Nat) (start : Start) (refusal : Refusal), world.starts[k]? = some start →
    start.place = .raised refusal → ∀ turn ∈ world.turns, turn.opener ≠ k
  /-- It opened a buffer only when its last check or its publication failed. -/
  noBuffer : ∀ start ∈ world.starts, ∀ refusal, start.place = .raised refusal → start.opened = true →
    refusal = .shuttingDown true ∨ refusal = .publication

def Early : Place → Prop
  | .entering => True
  | .waiting => True
  | .joining _ => True
  | .opening => True
  | _ => False

def Late (refusal : Refusal) : Prop := refusal = .shuttingDown true ∨ refusal = .publication

structure Fair (start : Start) : Prop where
  early : Early start.place → start.opened = false
  forgets : ∀ refusal, start.place = .forgetting refusal → Late refusal
  raises : ∀ refusal, start.place = .raised refusal → start.opened = true → Late refusal

/-- What a call inside the lock knows: the turn before has ended or closed its buffer, or is waited for. -/
def Ready (world : World) (start : Start) : Prop :=
  match start.place with
  | .joining i => ∀ j, world.current start.conversation = some j → j = i
  | .opening => ∀ i turn, world.current start.conversation = some i → world.turns[i]? = some turn →
      turn.running = true → turn.closed = true
  | .publishing => ∀ i turn, world.current start.conversation = some i → world.turns[i]? = some turn →
      turn.running = true → turn.closed = true
  | _ => True

structure Inv (world : World) : Prop where
  locked : ∀ (k : Nat) (start : Start), world.starts[k]? = some start → start.place.inside = true →
    world.holder start.lock = some k
  shared : ∀ (k : Nat) (start : Start), world.starts[k]? = some start → start.place.live = true →
    world.locks start.conversation = some start.lock
  currentIs : ∀ conversation i, world.current conversation = some i →
    ∃ turn, world.turns[i]? = some turn ∧ turn.conversation = conversation
  unfinished : ∀ (i : Nat) (turn : Turn), world.turns[i]? = some turn → turn.running = true → turn.closed = false →
    world.current turn.conversation = some i
  ready : ∀ (k : Nat) (start : Start), world.starts[k]? = some start → Ready world start
  fair : ∀ (k : Nat) (start : Start), world.starts[k]? = some start → Fair start
  openers : ∀ (i : Nat) (turn : Turn), world.turns[i]? = some turn →
    ∃ start, world.starts[turn.opener]? = some start ∧ start.place = .returned i

theorem fresh_inv (redis : Bool) : Inv (fresh redis) := by
  constructor <;> simp [fresh]

theorem live_of_inside {place : Place} (inside : place.inside = true) : place.live = true := by
  simp [Place.live,inside]

section
variable {world : World}

theorem Inv.alone (inv : Inv world) {k j : Nat} {first second : Start} (found : world.starts[k]? = some first)
    (found' : world.starts[j]? = some second) (same : first.conversation = second.conversation)
    (inside : first.place.inside = true) (inside' : second.place.inside = true) : k = j := by
  have lock := inv.shared k first found (live_of_inside inside)
  have lock' := inv.shared j second found' (live_of_inside inside')
  grind only [inv.locked k first found inside,inv.locked j second found' inside']

theorem existing_iff {conversation i : Nat} {turn : Turn} : world.existing conversation = some (i,turn) ↔
    world.current conversation = some i ∧ world.turns[i]? = some turn := by
  unfold World.existing
  cases world.current conversation with
  | none => simp
  | some j => grind

theorem Inv.existing_none (inv : Inv world) {conversation : Nat} (absent : world.existing conversation = none) :
    world.current conversation = none := by
  cases current : world.current conversation with
  | none => rfl
  | some i =>
    obtain ⟨turn,found,-⟩ := inv.currentIs conversation i current
    rw [existing_iff.mpr ⟨current,found⟩] at absent; cases absent

theorem Ready.later {world' : World} {start : Start} (ready : Ready world start)
    (current : start.place.inside = true → ∀ i, world'.current start.conversation = some i →
      world.current start.conversation = some i)
    (older : ∀ i turn, world.current start.conversation = some i → world'.turns[i]? = some turn → turn.running = true →
      ∃ before, world.turns[i]? = some before ∧ before.running = true ∧ (before.closed = true → turn.closed = true)) :
    Ready world' start := by
  unfold Ready at *
  cases place : start.place <;> grind only [Place.inside]

structure Ages (f : Turn → Turn) : Prop where
  conversation : ∀ turn, (f turn).conversation = turn.conversation
  opener : ∀ turn, (f turn).opener = turn.opener
  running : ∀ turn, (f turn).running = true → turn.running = true
  closed : ∀ turn, turn.closed = true → (f turn).closed = true

theorem change_found {i j : Nat} {f : Turn → Turn} {turn : Turn} (found : (world.change i f).turns[j]? = some turn) :
    ∃ before, world.turns[j]? = some before ∧ (turn = before ∨ j = i ∧ turn = f before) := by grind [World.change]

theorem Inv.change (inv : Inv world) {f : Turn → Turn} (ages : Ages f) (i : Nat) : Inv (world.change i f) := by
  obtain ⟨sameConversation,opener,running,closed⟩ := ages
  refine ⟨inv.locked,inv.shared,fun conversation j current => ?_,fun j turn found => ?_,fun k start found => ?_,
    inv.fair,fun j turn found => ?_⟩
  · have before := inv.currentIs conversation j current
    grind [World.change]
  · obtain ⟨before,there,rfl | ⟨-,rfl⟩⟩ := change_found found
    · exact inv.unfinished j turn there
    · have was := inv.unfinished j before there
      grind only [World.change]
  · have ready := inv.ready k start found
    refine ready.later (fun _ _ current => current) fun j turn _ there busy => ?_
    obtain ⟨before,earlier,rfl | ⟨-,rfl⟩⟩ := change_found there
    · exact ⟨turn,earlier,busy,id⟩
    · exact ⟨before,earlier,running before busy,closed before⟩
  · obtain ⟨before,there,rfl | ⟨-,rfl⟩⟩ := change_found found
    · exact inv.openers j turn there
    · rw [opener]; exact inv.openers j before there

theorem Inv.changes (inv : Inv world) {f : Turn → Turn} (ages : Ages f) (positions : List Nat) :
    Inv (positions.foldl (fun world i => world.change i f) world) := by
  induction positions generalizing world with
  | nil => exact inv
  | cons i rest ih => exact ih (inv.change ages i)

theorem Inv.drop (inv : Inv world) (conversation : Nat) : Inv (dropFinished world conversation) := by
  unfold dropFinished
  split
  · rename_i i turn existing
    split
    · exact inv
    · obtain ⟨current,found⟩ := existing_iff.mp existing
      have before : ∀ {other j}, Function.update world.current conversation none other = some j →
          world.current other = some j := by grind only [update_apply]
      refine ⟨inv.locked,inv.shared,fun other j now => inv.currentIs other j (before now),fun j other there => ?_,
        fun k start there => ?_,inv.fair,inv.openers⟩
      · have was := inv.unfinished j other there
        grind only [update_apply]
      · have ready := inv.ready k start there
        exact ready.later (fun _ _ => before) fun j other _ there busy => ⟨other,there,busy,id⟩
  · exact inv

theorem Inv.gc (inv : Inv world) (stale : List Nat) : Inv (stale.foldl dropFinished world) := by
  induction stale generalizing world with
  | nil => exact inv
  | cons conversation rest ih => exact ih (inv.drop conversation)

section
variable {k : Nat} {start next : Start}

theorem ready_outside (out : start.place.live = false) : Ready world start := by
  unfold Ready
  grind [Place.live,Place.inside]

theorem Inv.openers_set (inv : Inv world) (found : world.starts[k]? = some start)
    (unreturned : ∀ i, start.place ≠ .returned i) {i : Nat} {turn : Turn} (there : world.turns[i]? = some turn) :
    ∃ other, (world.starts.set k next)[turn.opener]? = some other ∧ other.place = .returned i := by
  have opener := inv.openers i turn there
  grind

theorem Inv.move (inv : Inv world) (found : world.starts[k]? = some start) (unreturned : ∀ i, start.place ≠ .returned i)
    (lock : next.place.inside = true → world.holder next.lock = some k)
    (map : next.place.live = true → world.locks next.conversation = some next.lock) (ready : Ready world next)
    (fair : Fair next) : Inv (world.move k next) where
  locked := all_set (fun j other _ => inv.locked j other) lock
  shared := all_set (fun j other _ => inv.shared j other) map
  currentIs := inv.currentIs
  unfinished := inv.unfinished
  ready := all_set (fun j other _ => inv.ready j other) ready
  fair := all_set (fun j other _ => inv.fair j other) fair
  openers := fun _ _ there => inv.openers_set found unreturned there

theorem unreturned_of_inside (inside : start.place.inside = true) : ∀ i, start.place ≠ .returned i := by
  grind [Place.inside]

section
variable (inv : Inv world)
  (found : world.starts[k]? = some start)
  (inside : start.place.inside = true)
  (same : next.lock = start.lock)
include inv found inside same

theorem Inv.leave (out : next.place.live = false) (fair : Fair next) : Inv (world.leave k next) where
  locked := by
    have holder := inv.locked k start found inside
    refine all_set (fun j other apart before within => ?_) (by grind [live_of_inside])
    have holds := inv.locked j other before within
    simp only [World.leave]
    grind
  shared := all_set (fun j other _ => inv.shared j other) (by simp [out])
  currentIs := inv.currentIs
  unfinished := inv.unfinished
  ready := all_set (fun j other _ => inv.ready j other) (ready_outside out)
  fair := all_set (fun j other _ => inv.fair j other) fair
  openers := fun _ _ there => inv.openers_set found (unreturned_of_inside inside) there

theorem Inv.admit (returned : next.place = .returned world.turns.length)
    (finished : ∀ i turn, world.current start.conversation = some i → world.turns[i]? = some turn →
      turn.running = true → turn.closed = true) (turn : Turn) (made : turn.conversation = start.conversation)
    (opener : turn.opener = k) :
    Inv { world.leave k next with
      turns := world.turns ++ [turn]
      current := Function.update world.current start.conversation (some world.turns.length) } := by
  have out : next.place.live = false := by rw [returned]; rfl
  have fair : Fair next := by constructor <;> simp [returned,Early]
  have left := inv.leave found inside same out fair
  -- only this call is inside the lock of its conversation
  have elsewhere : ∀ {j : Nat} {other : Start}, (world.starts.set k next)[j]? = some other → other.place.inside = true →
      other.conversation ≠ start.conversation := by
    intro j other there within sameConversation
    rcases set_found there with ⟨-,rfl⟩ | ⟨apart,before⟩
    · simp [live_of_inside within] at out
    · exact apart (inv.alone before found sameConversation within inside)
  refine ⟨left.locked,left.shared,?_,?_,?_,left.fair,?_⟩
  · intro other i now
    have before := inv.currentIs other i
    grind
  · refine all_append (fun i other before running open_ => ?_) (fun _ _ => by simp [made])
    have was := inv.unfinished i other before running open_
    grind
  · intro j other there
    have ready := left.ready j other there
    refine ready.later (fun within i now => ?_) fun i before now seen busy => ?_
    · exact (update_of_ne (elsewhere there within) _ _).symm.trans now
    · obtain ⟨was,kept,-⟩ := left.currentIs other.conversation i now
      exact ⟨before,(List.getElem?_append_left (List.getElem?_eq_some_iff.mp kept).1).symm.trans seen,busy,id⟩
  · refine all_append (fun i other before => left.openers i other before) ⟨next,?_,returned⟩
    rw [opener]; exact List.getElem?_set_self (List.getElem?_eq_some_iff.mp found).1

theorem Inv.register (conversation : next.conversation = start.conversation)
    (finished : ∀ i turn, world.current start.conversation = some i → world.turns[i]? = some turn →
      turn.running = true → turn.closed = true) : Inv (register world k next) := by
  unfold RunRegistry.register
  have lock := inv.locked k start found inside
  have map := inv.shared k start found (live_of_inside inside)
  split
  · split
    · exact inv.move found (unreturned_of_inside inside) (fun _ => by simpa [same] using lock)
        (fun _ => by simpa [same,conversation] using map) trivial ⟨False.elim,by simp [Late],by simp⟩
    · exact inv.leave found inside same rfl ⟨False.elim,by simp,by simp [Late]⟩
  · rw [conversation]
    refine inv.admit found inside ?_ ?_ finished _ ?_ ?_
    · exact same
    all_goals rfl

end

/-- What the checks under the lock decide; a turn is admitted over one that has ended or closed its buffer. -/
inductive Decides (world : World) (start : Start) : Place → Prop where
  | refuses (refusal : Refusal) : Decides world start (.raised refusal)
  | joins (i : Nat) (current : world.current start.conversation = some i) : Decides world start (.joining i)
  | opens (finished : ∀ i turn, world.current start.conversation = some i → world.turns[i]? = some turn →
      turn.running = true → turn.closed = true) : Decides world start .opening

theorem Inv.check (inv : Inv world) (start : Start) : Decides world start (check world start) := by
  unfold RunRegistry.check
  split
  · exact .refuses _
  split
  · rename_i existing
    exact .opens fun i turn current _ => by simp [inv.existing_none existing] at current
  · rename_i i turn existing
    obtain ⟨current,there⟩ := existing_iff.mp existing
    split_ifs
    · exact .refuses _
    · exact .refuses _
    · exact .joins i current
    · exact .opens (by grind only)

theorem Inv.newLock (inv : Inv world) {conversation : Nat} (absent : world.locks conversation = none) (lock next : Nat) :
    Inv { world with locks := Function.update world.locks conversation (some lock), nextLock := next } := by
  refine ⟨inv.locked,fun j other there live => ?_,inv.currentIs,inv.unfinished,inv.ready,inv.fair,inv.openers⟩
  have was := inv.shared j other there live
  grind only [update_apply]

theorem Inv.takeLock (inv : Inv world) {lock : Nat} (free : world.holder lock = none) (k : Nat) :
    Inv { world with holder := Function.update world.holder lock (some k) } := by
  refine ⟨fun j other there inside => ?_,inv.shared,inv.currentIs,inv.unfinished,inv.ready,inv.fair,inv.openers⟩
  have holds := inv.locked j other there inside
  grind only [update_apply]

theorem fair_raised {refusal : Refusal} (early : start.opened = false) : Fair { start with place := .raised refusal } :=
  ⟨False.elim,by simp,by simp [early]⟩

theorem fair_early {place : Place} (early : start.opened = false) (stands : Early place) :
    Fair { start with place := place } := by
  refine ⟨fun _ => early,?_,?_⟩
  all_goals
    rintro refusal rfl
    cases stands

theorem Inv.waiting (inv : Inv world) (found : world.starts[k]? = some start) (place : start.place = .waiting) (ok : Bool) :
    Inv (advance world k start ok) := by
  have early : start.opened = false := (inv.fair k start found).early (by rw [place]; trivial)
  have unreturned : ∀ i, start.place ≠ .returned i := by simp [place]
  have map := inv.shared k start found (by rw [place]; rfl)
  have refused : ∀ refusal, Inv (world.move k { start with place := .raised refusal }) := fun refusal =>
    inv.move found unreturned (by simp [Place.inside]) (by simp [Place.live,Place.inside]) trivial (fair_raised early)
  simp only [advance,place]
  cases ok with
  | false => exact refused .cancelled
  | true =>
    by_cases held : (world.holder start.lock).isSome = true
    · rw [if_pos held]; exact inv
    rw [if_neg held]
    have taken := inv.takeLock (by simpa using held) k
    have decides := inv.check start
    generalize RunRegistry.check world start = decision at decides
    cases decides with
    | refuses refusal => exact refused refusal
    | joins i current =>
      exact taken.move found unreturned (by simp) (fun _ => map) (fun j now => by simpa [current] using now.symm)
        (fair_early early trivial)
    | opens finished => exact taken.move found unreturned (by simp) (fun _ => map) finished (fair_early early trivial)

theorem Inv.advance (inv : Inv world) (found : world.starts[k]? = some start) (ok : Bool) :
    Inv (advance world k start ok) := by
  have fair := inv.fair k start found
  have ready := inv.ready k start found
  have lock := inv.locked k start found
  have map := inv.shared k start found
  have early := fair.early
  unfold Ready at ready
  cases place : start.place with
  | entering =>
    rw [place] at early
    have next : ∀ lock, Fair { start with lock := lock, place := .waiting } :=
      fun lock => ⟨fun _ => early trivial,by simp,by simp⟩
    simp only [RunRegistry.advance,place]
    cases known : world.locks start.conversation with
    | some there => exact inv.move found (by simp [place]) (by simp [Place.inside]) (fun _ => known) trivial (next there)
    | none =>
      exact (inv.newLock known world.nextLock (world.nextLock + 1)).move found (by simp [place]) (by simp [Place.inside])
        (by simp) trivial (next world.nextLock)
  | waiting => exact inv.waiting found place ok
  | joining i =>
    rw [place] at ready lock map early
    simp only [RunRegistry.advance,place]
    split_ifs with failed ended
    · exact inv.leave found (by rw [place]; rfl) rfl rfl (fair_raised (early trivial))
    · refine inv.move found (by simp [place]) (fun _ => lock rfl) (fun _ => map rfl) ?_ (fair_early (early trivial) trivial)
      intro j turn current there running
      rw [ready j current] at there
      simp [World.ended,there,running] at ended
    · exact inv
  | opening =>
    rw [place] at ready lock map early
    have inside : start.place.inside = true := by rw [place]; rfl
    simp only [RunRegistry.advance,place]
    split_ifs
    · exact inv.leave found inside rfl rfl (fair_raised (early trivial))
    · exact inv.move found (by simp [place]) (fun _ => lock rfl) (fun _ => map rfl) ready ⟨False.elim,by simp,by simp⟩
    · exact inv.register found inside rfl rfl ready
  | publishing =>
    rw [place] at ready lock map
    simp only [RunRegistry.advance,place]
    split_ifs
    · exact inv.register found (by rw [place]; rfl) rfl rfl ready
    · exact inv.move found (by simp [place]) (fun _ => lock rfl) (fun _ => map rfl) trivial
        ⟨False.elim,by simp [Late],by simp⟩
  | forgetting refusal =>
    simp only [RunRegistry.advance,place]
    refine inv.leave found (by rw [place]; rfl) rfl rfl ⟨False.elim,by simp,?_⟩
    rintro other ⟨⟩ _; exact fair.forgets refusal place
  | returned i | raised refusal => simpa only [RunRegistry.advance,place] using inv

end

theorem Inv.start (inv : Inv world) (conversation : Nat) (turnId : Int) : Inv (step world (.start conversation turnId)) where
  locked := all_append inv.locked nofun
  shared := all_append inv.shared nofun
  currentIs := inv.currentIs
  unfinished := inv.unfinished
  ready := all_append inv.ready trivial
  fair := all_append inv.fair ⟨fun _ => rfl,by simp,by simp⟩
  openers := by
    intro i turn found
    obtain ⟨start,opener,returned⟩ := inv.openers i turn found
    exact ⟨start,List.getElem?_append_left (List.getElem?_eq_some_iff.mp opener).1 ▸ opener,returned⟩

theorem Inv.collect (inv : Inv world) (conversation : Nat) : Inv (step world (.collect conversation)) := by
  simp only [step]
  split
  · exact inv
  · rename_i unused
    refine ⟨inv.locked,fun k start found live => ?_,inv.currentIs,inv.unfinished,inv.ready,inv.fair,inv.openers⟩
    have apart : start.conversation ≠ conversation := by
      rintro rfl; exact unused (any_eq_true.mpr ⟨start,mem_of_getElem? found,by simp [live]⟩)
    exact (update_of_ne apart _ _).trans (inv.shared k start found live)

theorem step_inv (inv : Inv world) (action : Action) : Inv (step world action) := by
  cases action with
  | start conversation turnId => exact inv.start conversation turnId
  | advance k ok =>
    cases found : world.starts[k]? with
    | some start =>
      simp only [step,found]
      exact inv.advance found ok
    | none => simpa only [step,found] using inv
  | collect conversation => exact inv.collect conversation
  | finishing i | closeBuffer i | finish i | save i => exact inv.change (by constructor <;> grind) i
  | cancel conversation =>
    cases existing : world.existing conversation with
    | none => simpa only [step,existing] using inv
    | some pair =>
      simp only [step,existing]
      exact inv.change (by constructor <;> grind) pair.1
  | gc stale => exact inv.gc stale
  | close => exact ⟨inv.locked,inv.shared,inv.currentIs,inv.unfinished,inv.ready,inv.fair,inv.openers⟩
  | shutdown => exact inv.changes (by constructor <;> grind) (inFlight world)

theorem mem_inFlight {i : Nat} {turn : Turn} (found : world.turns[i]? = some turn) :
    i ∈ inFlight world ↔ turn.running = true ∧ world.current turn.conversation = some i := by
  have inside := (List.getElem?_eq_some_iff.mp found).1
  rw [inFlight,mem_filter,mem_range]
  simp only [found,inside,Bool.and_eq_true,decide_eq_true_eq,true_and]

theorem Inv.admitted (inv : Inv world) : Admitted world where
  single := by
    intro i j first second here there same answering answering'
    simp only [Turn.answering,Bool.and_eq_true,Bool.not_eq_true'] at answering answering'
    have current := inv.unfinished i first here answering.1.1 answering.1.2
    have current' := inv.unfinished j second there answering'.1.1 answering'.1.2
    rw [same,current'] at current
    exact (Option.some.inj current).symm
  seen := by
    intro i turn found running open_
    exact (mem_inFlight found).mpr ⟨running,inv.unfinished i turn found running open_⟩
  noTurn := by
    intro k start refusal found raised turn member opener
    obtain ⟨i,there⟩ := mem_iff_getElem?.mp member
    obtain ⟨other,made,returned⟩ := inv.openers i turn there
    rw [opener,found] at made
    rw [← Option.some.inj made,raised] at returned; cases returned
  noBuffer := by
    intro start member refusal raised opened
    obtain ⟨k,found⟩ := mem_iff_getElem?.mp member
    exact (inv.fair k start found).raises refusal raised opened

def Shut (world after : World) : Prop := after.closed = true ∧ after.turns.length = world.turns.length

section
variable (closed : world.closed = true)
include closed

theorem shut_gc (stale : List Nat) : Shut world (stale.foldl dropFinished world) := by
  induction stale generalizing world with
  | nil => exact ⟨closed,rfl⟩
  | cons conversation rest ih =>
    have one : Shut world (dropFinished world conversation) := by grind [Shut,dropFinished]
    obtain ⟨still,count⟩ := ih one.1
    exact ⟨still,count.trans one.2⟩

theorem shut_changes (f : Turn → Turn) (positions : List Nat) :
    Shut world (positions.foldl (fun world i => world.change i f) world) := by
  induction positions generalizing world with
  | nil => exact ⟨closed,rfl⟩
  | cons i rest ih =>
    obtain ⟨still,count⟩ := @ih (world.change i f) closed
    exact ⟨still,count.trans (by simp [World.change])⟩

theorem shut_advance (k : Nat) (start : Start) (ok : Bool) : Shut world (advance world k start ok) := by
  unfold RunRegistry.advance Shut
  cases start.place <;> grind [World.move,World.leave,RunRegistry.register]

theorem shut_step (action : Action) : Shut world (step world action) := by
  have changed : ∀ i f, Shut world (world.change i f) := fun i f => ⟨closed,by simp [World.change]⟩
  cases action with
  | gc stale => exact shut_gc closed stale
  | shutdown => exact shut_changes closed _ (inFlight world)
  | _ => grind [step,Shut,shut_advance]

theorem shut_reach (actions : List Action) : Shut world (reach step world actions) := by
  induction actions generalizing world with
  | nil => exact ⟨closed,rfl⟩
  | cons action rest ih =>
    obtain ⟨still,count⟩ := shut_step closed action
    obtain ⟨later,sum⟩ := ih still
    exact ⟨later,sum.trans count⟩

end

end

/-- At every moment of every run the registry admits turns as it should, and after `close` it makes none. -/
theorem turns_admitted (redis : Bool) (before after : List Action) :
    Admitted (reach step (fresh redis) before) ∧
      (reach step (fresh redis) (before ++ .close :: after)).turns.length =
        (reach step (fresh redis) before).turns.length := by
  refine ⟨(@always_reach _ _ step Inv (fun _ action inv => step_inv inv action) _ (fresh_inv redis) before).admitted,?_⟩
  rw [reach_append]
  exact (shut_reach rfl after).2

/-- The steps of `start` on the file backend: the lock's entry, the checks, the buffer and the registration. -/
def admits (k : Nat) : List Action := [.advance k true,.advance k true,.advance k true]

def overlapRun : List Action :=
  .start 0 0 :: admits 0 ++ .closeBuffer 0 :: .start 0 2 :: admits 1 ++ [.close]

/-- A `shutdown` after `close` does not see the first task, which still runs. -/
theorem shutdown_misses_a_task : (reach step (fresh false) overlapRun).closed = true ∧
    (∃ turn, (reach step (fresh false) overlapRun).turns[0]? = some turn ∧ turn.running = true) ∧
    inFlight (reach step (fresh false) overlapRun) = [1] :=
  ⟨rfl,⟨_,rfl,rfl⟩,by decide +kernel⟩

end Cowork.RunAdmission
