import Cowork.RunAdmission

/-!
A question that was saved keeps its turn number: no later turn of the conversation has
that number or a smaller one. The registry compares a new turn only with the handle in
its map, so that handle has to stand for the saved questions. A turn that saves nothing
hides the one before, and `gc_finished` drops it (`saved_number_used_again`).
-/
namespace Cowork.SavedQuestions
open Transitions RunRegistry RunAdmission List Function

def NumbersKept (world : World) : Prop :=
  ∀ (i j : Nat) (first second : Turn), i < j → world.turns[i]? = some first → world.turns[j]? = some second →
    first.conversation = second.conversation → first.saved = true → first.turnId < second.turnId

def HasSaved (world : World) (conversation : Nat) : Prop :=
  ∃ turn ∈ world.turns, turn.conversation = conversation ∧ turn.saved = true

instance (world : World) (conversation : Nat) : Decidable (HasSaved world conversation) :=
  inferInstanceAs (Decidable (∃ turn ∈ world.turns, _))

def Unsaved (world : World) (conversation : Nat) : Bool :=
  match world.existing conversation with
  | some (_,turn) => !turn.saved
  | none => false

/-- `gc_finished` would drop the conversation's handle. -/
def Droppable (world : World) (conversation : Nat) : Bool :=
  match world.existing conversation with
  | some (_,turn) => !turn.running
  | none => false

/-- A turn saves its question before its final frame; in a conversation with a saved question, no handle is dropped
    and no call passes its checks over a turn that has saved nothing. -/
def Careful (world : World) : Action → Prop
  | .save i => ∀ turn ∈ world.turns[i]?, turn.running = true → turn.answering = true
  | .gc stale => ∀ conversation ∈ stale, Droppable world conversation = true → ¬HasSaved world conversation
  | .advance k _ => ∀ start ∈ world.starts[k]?, start.place = .waiting → (check world start).inside = true →
      Unsaved world start.conversation = true → ¬HasSaved world start.conversation
  | _ => True

instance (world : World) (action : Action) : Decidable (Careful world action) := by
  cases action <;> unfold Careful <;> infer_instance

/-- A call past its checks: its number is above the saved ones, and no turn of its conversation is answering. -/
structure Above (world : World) (start : Start) : Prop where
  greater : ∀ turn ∈ world.turns, turn.conversation = start.conversation → turn.saved = true → turn.turnId < start.turnId
  quiet : ∀ turn ∈ world.turns, turn.conversation = start.conversation → turn.answering = false

def admitting : Place → Bool
  | .joining _ => true
  | .opening => true
  | .publishing => true
  | _ => false

structure Kept (world : World) : Prop where
  numbers : NumbersKept world
  stands : ∀ (i : Nat) (turn : Turn), world.turns[i]? = some turn → turn.saved = true →
    ∃ j latest, world.current turn.conversation = some j ∧ world.turns[j]? = some latest ∧
      (i = j ∨ turn.turnId < latest.turnId)
  newest : ∀ (conversation i : Nat), world.current conversation = some i → ∀ (j : Nat) (turn : Turn),
    world.turns[j]? = some turn → turn.conversation = conversation → j ≤ i
  above : ∀ (k : Nat) (start : Start), world.starts[k]? = some start → admitting start.place = true → Above world start

theorem fresh_kept (redis : Bool) : Kept (fresh redis) := by
  constructor <;> simp [fresh,NumbersKept]

section
variable {world : World}

/-- Turns are rewritten in place: each keeps its number and conversation, and one that is saved only now is the
    conversation's handle and still answering. -/
theorem Kept.rewrite (kept : Kept world) {after : World} (current : after.current = world.current)
    (starts : after.starts = world.starts)
    (found : ∀ (j : Nat) (turn : Turn), after.turns[j]? = some turn → ∃ before, world.turns[j]? = some before ∧
      turn.turnId = before.turnId ∧ turn.conversation = before.conversation ∧
      (before.answering = false → turn.answering = false) ∧
      (turn.saved = true → before.saved = true ∨ before.answering = true ∧ world.current before.conversation = some j))
    (stays : ∀ (j : Nat) (turn : Turn), world.turns[j]? = some turn →
      ∃ later, after.turns[j]? = some later ∧ later.turnId = turn.turnId) : Kept after := by
  refine ⟨fun a b first second less here there same saved => ?_,fun i turn here saved => ?_,
    fun conversation i handle j turn there kind => ?_,fun k start inside admits => ?_⟩
  · obtain ⟨one,earlier,number,talk,_,marks⟩ := found a first here
    obtain ⟨two,earlier',number',talk',_⟩ := found b second there
    rw [talk,talk'] at same
    rw [number,number']
    rcases marks saved with old | ⟨_,handle⟩
    · exact kept.numbers a b one two less earlier earlier' same old
    · exact absurd (kept.newest _ a handle b two earlier' same.symm) (by omega)
  · obtain ⟨before,earlier,number,talk,_,marks⟩ := found i turn here
    rw [current,talk,number]
    rcases marks saved with old | ⟨_,handle⟩
    · obtain ⟨j,latest,handle,there,beyond⟩ := kept.stands i before earlier old
      obtain ⟨later,now,same⟩ := stays j latest there
      exact ⟨j,later,handle,now,same ▸ beyond⟩
    · exact ⟨i,turn,handle,here,.inl rfl⟩
  · obtain ⟨before,earlier,_,talk,_⟩ := found j turn there
    exact kept.newest conversation i (current ▸ handle) j before earlier (talk ▸ kind)
  · obtain ⟨greater,quiet⟩ := kept.above k start (starts ▸ inside) admits
    refine ⟨fun turn member same saved => ?_,fun turn member same => ?_⟩
    all_goals
      obtain ⟨j,there⟩ := mem_iff_getElem?.mp member
      obtain ⟨before,earlier,number,talk,calm,marks⟩ := found j turn there
      have old := mem_of_getElem? earlier
      have silent := quiet before old (talk ▸ same)
    · rcases marks saved with saved | ⟨busy,_⟩
      · exact number ▸ greater before old (talk ▸ same) saved
      · simp [silent] at busy
    · exact calm silent

theorem change_stays {f : Turn → Turn} (numbers : ∀ turn, (f turn).turnId = turn.turnId) (i j : Nat) (turn : Turn)
    (found : world.turns[j]? = some turn) :
    ∃ later, (world.change i f).turns[j]? = some later ∧ later.turnId = turn.turnId := by
  by_cases same : i = j
  · exact ⟨f turn,by simp [World.change,same,found],numbers turn⟩
  · exact ⟨turn,by simp [World.change,same,found],rfl⟩

structure Calm (f : Turn → Turn) : Prop where
  turnId : ∀ turn, (f turn).turnId = turn.turnId
  saved : ∀ turn, (f turn).saved = turn.saved
  conversation : ∀ turn, (f turn).conversation = turn.conversation
  answering : ∀ turn, turn.answering = false → (f turn).answering = false

theorem Kept.change (kept : Kept world) {f : Turn → Turn} (calm : Calm f) (i : Nat) : Kept (world.change i f) := by
  refine kept.rewrite rfl rfl (fun j turn there => ?_) (change_stays calm.turnId i)
  obtain ⟨before,earlier,rfl | ⟨-,rfl⟩⟩ := change_found there
  · exact ⟨turn,earlier,rfl,rfl,id,.inl⟩
  · exact ⟨before,earlier,calm.turnId _,calm.conversation _,calm.answering _,fun saved => .inl (calm.saved _ ▸ saved)⟩

theorem Kept.changes (kept : Kept world) {f : Turn → Turn} (calm : Calm f) (positions : List Nat) :
    Kept (positions.foldl (fun world i => world.change i f) world) := by
  induction positions generalizing world with
  | nil => exact kept
  | cons i rest ih => exact ih (kept.change calm i)

theorem answering_current (inv : Inv world) {i : Nat} {turn : Turn} (found : world.turns[i]? = some turn)
    (answering : turn.answering = true) : world.current turn.conversation = some i := by
  simp only [Turn.answering,Bool.and_eq_true,Bool.not_eq_true'] at answering
  exact inv.unfinished i turn found answering.1.1 answering.1.2

theorem Kept.save (kept : Kept world) (inv : Inv world) {i : Nat} (careful : Careful world (.save i)) :
    Kept (step world (.save i)) := by
  refine kept.rewrite rfl rfl (fun j turn there => ?_) (change_stays (fun turn => by split <;> rfl) i)
  obtain ⟨before,earlier,rfl | ⟨rfl,rfl⟩⟩ := change_found there
  · exact ⟨turn,earlier,rfl,rfl,id,.inl⟩
  · cases running : before.running with
    | false => exact ⟨before,earlier,rfl,rfl,id,.inl⟩
    | true =>
      have busy := careful before earlier running
      exact ⟨before,earlier,rfl,rfl,by simp [Turn.answering,running],fun _ => .inr ⟨busy,answering_current inv earlier busy⟩⟩

theorem Kept.drop (kept : Kept world) {conversation : Nat}
    (careful : Droppable world conversation = true → ¬HasSaved world conversation) :
    Kept (dropFinished world conversation) := by
  unfold dropFinished
  split
  · rename_i i turn existing
    split
    · exact kept
    · rename_i running
      have nothing := careful (by simp [Droppable,existing,running])
      refine ⟨kept.numbers,fun i turn found saved => ?_,fun other i current => ?_,
        fun k start found inside => ⟨(kept.above k start found inside).greater,(kept.above k start found inside).quiet⟩⟩
      · obtain ⟨j,latest,current,there,beyond⟩ := kept.stands i turn found saved
        have apart : turn.conversation ≠ conversation :=
          fun same => nothing ⟨turn,mem_of_getElem? found,same,saved⟩
        exact ⟨j,latest,(update_of_ne apart _ _).trans current,there,beyond⟩
      · have before := kept.newest other i
        grind -linarith only [update_apply]
  · exact kept

theorem droppable_drop {conversation other : Nat} (still : Droppable (dropFinished world conversation) other = true) :
    Droppable world other = true := by
  unfold dropFinished at still
  split at still
  · split at still
    all_goals grind -linarith only [Droppable,World.existing,update_of_ne]
  · exact still

theorem Kept.gc (kept : Kept world) {stale : List Nat}
    (careful : ∀ conversation ∈ stale, Droppable world conversation = true → ¬HasSaved world conversation) :
    Kept (stale.foldl dropFinished world) := by
  induction stale generalizing world with
  | nil => exact kept
  | cons conversation rest ih =>
    refine ih (kept.drop (careful conversation (by simp))) fun other member droppable => ?_
    have before := careful other (by simp [member]) (droppable_drop droppable)
    grind -linarith [HasSaved,dropFinished]

section
variable {k : Nat} {start next : Start}

theorem Kept.restart (kept : Kept world) {after : World} (turns : after.turns = world.turns)
    (current : after.current = world.current)
    (above : ∀ (k : Nat) start, after.starts[k]? = some start → admitting start.place = true → Above world start) : Kept after := by
  refine ⟨by simpa only [NumbersKept,turns] using kept.numbers,by simpa only [turns,current] using kept.stands,
    by simpa only [turns,current] using kept.newest,fun k start found admits => ?_⟩
  obtain ⟨greater,quiet⟩ := above k start found admits
  exact ⟨by rwa [turns],by rwa [turns]⟩

theorem Kept.move (kept : Kept world) {after : World} (turns : after.turns = world.turns)
    (current : after.current = world.current) (starts : after.starts = world.starts.set k next)
    (above : admitting next.place = true → Above world next) : Kept after := by
  refine kept.restart turns current ?_
  rw [starts]; exact all_set (fun j start _ => kept.above j start) above

theorem inside_of_admitting {place : Place} (admits : admitting place = true) : place.inside = true := by
  cases place <;> first | rfl | cases admits

theorem Kept.register (kept : Kept world) (inv : Inv world) (found : world.starts[k]? = some start)
    (inside : admitting start.place = true) (same : next.conversation = start.conversation)
    (number : next.turnId = start.turnId) : Kept (register world k next) := by
  obtain ⟨greater,quiet⟩ := kept.above k start found inside
  unfold RunRegistry.register
  split
  · split <;> exact kept.move rfl rfl rfl nofun
  refine ⟨fun i j first second less here there one saved => ?_,fun i turn here saved => ?_,
    fun conversation i current j turn there kind => ?_,?_⟩
  · rcases append_found here with old | ⟨_,rfl⟩
    · rcases append_found there with old' | ⟨_,rfl⟩
      · exact kept.numbers i j first second less old old' one saved
      · exact number ▸ greater first (mem_of_getElem? old) (same ▸ one) saved
    · cases saved
  · rcases append_found here with old | ⟨_,rfl⟩
    · by_cases mine : turn.conversation = next.conversation
      · exact ⟨_,_,mine ▸ update_self _ _ _,getElem?_concat_length,
          .inr (number ▸ greater turn (mem_of_getElem? old) (same ▸ mine) saved)⟩
      · obtain ⟨j,latest,current,there,beyond⟩ := kept.stands i turn old saved
        exact ⟨j,latest,(update_of_ne mine _ _).trans current,
          (getElem?_append_left (List.getElem?_eq_some_iff.mp there).1).trans there,beyond⟩
    · cases saved
  · by_cases mine : conversation = next.conversation
    · subst mine
      cases (update_self _ _ _).symm.trans current
      have inside := (List.getElem?_eq_some_iff.mp there).1
      rw [length_append] at inside; exact Nat.le_of_lt_succ inside
    · rcases append_found there with old | ⟨_,rfl⟩
      · exact kept.newest conversation i ((update_of_ne mine _ _).symm.trans current) j turn old kind
      · exact absurd kind.symm mine
  · refine all_set (fun j other elsewhere before within => ?_) nofun
    -- no other call of this conversation is inside the lock
    have apart : other.conversation ≠ start.conversation := fun one =>
      elsewhere (inv.alone before found one (inside_of_admitting within) (inside_of_admitting inside))
    have above := kept.above j other before within
    refine ⟨fun turn member one saved => ?_,fun turn member one => ?_⟩
    all_goals rcases mem_append.mp member with old | new
    · exact above.greater turn old one saved
    · rw [mem_singleton.mp new] at saved; cases saved
    · exact above.quiet turn old one
    · rw [mem_singleton.mp new] at one; exact absurd (one.symm.trans same) apart

theorem above_of_check (inv : Inv world) (kept : Kept world) (passes : (check world start).inside = true)
    (careful : Unsaved world start.conversation = true → ¬HasSaved world start.conversation) : Above world start := by
  have newest : ∀ turn ∈ world.turns, turn.answering = true →
      ∃ i, world.current turn.conversation = some i ∧ world.turns[i]? = some turn := by
    intro turn member busy
    obtain ⟨i,found⟩ := mem_iff_getElem?.mp member
    exact ⟨i,answering_current inv found busy,found⟩
  have stands : ∀ turn ∈ world.turns, turn.saved = true → ∃ j latest, world.current turn.conversation = some j ∧
      world.turns[j]? = some latest ∧ (turn = latest ∨ turn.turnId < latest.turnId) := by
    intro turn member saved
    obtain ⟨i,found⟩ := mem_iff_getElem?.mp member
    obtain ⟨j,latest,current,there,beyond⟩ := kept.stands i turn found saved
    exact ⟨j,latest,current,there,beyond.imp_left fun (same : i = j) => Option.some.inj (found.symm.trans (same ▸ there))⟩
  unfold check at passes
  cases existing : world.existing start.conversation with
  | none =>
    have absent := inv.existing_none existing
    refine ⟨fun turn member same saved => ?_,fun turn member same => Bool.eq_false_iff.mpr fun busy => ?_⟩
    · obtain ⟨j,_,current,_⟩ := stands turn member saved
      rw [same,absent] at current; cases current
    · obtain ⟨i,current,_⟩ := newest turn member busy
      rw [same,absent] at current; cases current
  | some pair =>
    obtain ⟨j,latest⟩ := pair
    obtain ⟨current,there⟩ := existing_iff.mp existing
    have passed : latest.answering = false ∧ (latest.saved = true → latest.turnId < start.turnId) := by
      grind -linarith [Place.inside]
    refine ⟨fun turn member same saved => ?_,fun turn member same => Bool.eq_false_iff.mpr fun busy => ?_⟩
    · have marked : latest.saved = true := by
        by_contra unsaved
        exact careful (by simp [Unsaved,existing,unsaved]) ⟨turn,member,same,saved⟩
      obtain ⟨i,last,handle,here,beyond⟩ := stands turn member saved
      cases (same ▸ handle).symm.trans current
      cases there.symm.trans here
      rcases beyond with rfl | less
      · exact passed.2 marked
      · exact Int.lt_trans less (passed.2 marked)
    · obtain ⟨i,handle,here⟩ := newest turn member busy
      cases (same ▸ handle).symm.trans current
      cases there.symm.trans here
      simp [passed.1] at busy

theorem Kept.advance (kept : Kept world) (inv : Inv world) (found : world.starts[k]? = some start) (ok : Bool)
    (careful : start.place = .waiting → (check world start).inside = true → Unsaved world start.conversation = true →
      ¬HasSaved world start.conversation) : Kept (advance world k start ok) := by
  have out : ∀ {next : Start}, admitting next.place = false → (admitting next.place = true → Above world next) :=
    fun never admits => by simp [never] at admits
  have still : ∀ {next : Start}, admitting start.place = true → next.conversation = start.conversation →
      next.turnId = start.turnId → (admitting next.place = true → Above world next) := by
    intro next admits same number _
    obtain ⟨greater,quiet⟩ := kept.above k start found admits
    exact ⟨by rw [same,number]; exact greater,by rw [same]; exact quiet⟩
  cases place : start.place with
  | entering =>
    simp only [RunRegistry.advance,place]
    split <;> exact kept.move rfl rfl rfl (out rfl)
  | waiting =>
    simp only [RunRegistry.advance,place]
    split_ifs with _ _ passes
    · exact kept.move rfl rfl rfl (out rfl)
    · exact kept
    · have above := above_of_check inv kept passes (careful place passes)
      exact kept.move rfl rfl rfl fun _ => ⟨above.greater,above.quiet⟩
    · exact kept.move rfl rfl rfl fun admits => absurd (inside_of_admitting admits) passes
  | joining i =>
    have admits : admitting start.place = true := by rw [place]; rfl
    simp only [RunRegistry.advance,place]
    split_ifs
    · exact kept.move rfl rfl rfl (out rfl)
    · exact kept.move rfl rfl rfl (still admits rfl rfl)
    · exact kept
  | opening =>
    have admits : admitting start.place = true := by rw [place]; rfl
    simp only [RunRegistry.advance,place]
    split_ifs
    · exact kept.move rfl rfl rfl (out rfl)
    · exact kept.move rfl rfl rfl (still admits rfl rfl)
    · exact kept.register inv found admits rfl rfl
  | publishing =>
    simp only [RunRegistry.advance,place]
    split_ifs
    · exact kept.register inv found (by rw [place]; rfl) rfl rfl
    · exact kept.move rfl rfl rfl (out rfl)
  | forgetting refusal =>
    simp only [RunRegistry.advance,place]
    exact kept.move rfl rfl rfl (out rfl)
  | returned i | raised refusal => simpa only [RunRegistry.advance,place] using kept

end

theorem step_kept (kept : Kept world) (inv : Inv world) {action : Action} (careful : Careful world action) :
    Kept (step world action) := by
  cases action with
  | start conversation turnId => exact kept.restart rfl rfl (all_append kept.above nofun)
  | advance k ok =>
    simp only [step]
    split
    · next start found => exact kept.advance inv found ok (careful start found)
    · exact kept
  | collect conversation =>
    simp only [step]
    split_ifs
    · exact kept
    · exact kept.restart rfl rfl kept.above
  | finishing i | closeBuffer i | finish i => exact kept.change (by constructor <;> simp [Turn.answering]) i
  | save i => exact kept.save inv careful
  | cancel conversation =>
    simp only [step]
    split
    · exact kept.change (by constructor <;> grind -linarith [Turn.answering]) _
    · exact kept
  | gc stale => exact kept.gc careful
  | close => exact kept.restart rfl rfl kept.above
  | shutdown => exact kept.changes (by constructor <;> simp [Turn.answering]) (inFlight world)

end

/-- A saved question keeps its number in every run in which the conversation's handle
    goes on standing for the saved questions. -/
theorem saved_numbers_kept (redis : Bool) (actions : List Action)
    (careful : Permitted step Careful (fresh redis) actions) : NumbersKept (reach step (fresh redis) actions) := by
  have both := @invariant_reach _ _ step (fun world => Inv world ∧ Kept world) Careful
    (fun _ action known ok => ⟨step_inv known.1 action,step_kept known.2 known.1 ok⟩) _
    ⟨fresh_inv redis,fresh_kept redis⟩ _ careful
  exact both.2.numbers

def savesAndEnds (i : Nat) : List Action := [.save i,.closeBuffer i,.finish i]

/-- Two turns save their questions, the second admitted while the first writes its end; a late request for the first
    number is refused. -/
def orderlyRun : List Action :=
  .start 0 0 :: admits 0 ++ [.save 0,.finishing 0,.start 0 2,.advance 1 true,.advance 1 true,.closeBuffer 0,.finish 0,
    .advance 1 true,.advance 1 true,.save 1,.closeBuffer 1,.start 0 0,.advance 2 true,.advance 2 true]

theorem orderlyRun_keeps : Permitted step Careful (fresh false) orderlyRun ∧
    (reach step (fresh false) orderlyRun).turns.map (·.turnId) = [0,2] ∧
    NumbersKept (reach step (fresh false) orderlyRun) :=
  have careful : Permitted step Careful (fresh false) orderlyRun := by decide +kernel
  ⟨careful,by decide +kernel,saved_numbers_kept false orderlyRun careful⟩

/-- Turn 2 saves its question, turn 4 saves nothing, and a late request for turn 2 is admitted. -/
def hiddenRun : List Action :=
  .start 0 2 :: admits 0 ++ savesAndEnds 0 ++ .start 0 4 :: admits 1 ++ [.closeBuffer 1,.finish 1] ++ .start 0 2 :: admits 2

def droppedRun : List Action :=
  .start 0 2 :: admits 0 ++ savesAndEnds 0 ++ .gc [0] :: .start 0 2 :: admits 1

theorem saved_number_used_again :
    (reach step (fresh false) hiddenRun).turns.map (fun turn => (turn.turnId,turn.saved)) =
      [(2,true),(4,false),(2,false)] ∧
    (reach step (fresh false) droppedRun).turns.map (fun turn => (turn.turnId,turn.saved)) = [(2,true),(2,false)] ∧
    ¬NumbersKept (reach step (fresh false) hiddenRun) ∧ ¬NumbersKept (reach step (fresh false) droppedRun) := by
  refine ⟨by decide +kernel,by decide +kernel,?_,?_⟩
  · intro keeps; exact absurd (keeps 0 2 _ _ (by decide) rfl rfl rfl rfl) (by decide +kernel)
  · intro keeps; exact absurd (keeps 0 1 _ _ (by decide) rfl rfl rfl rfl) (by decide +kernel)

end Cowork.SavedQuestions
