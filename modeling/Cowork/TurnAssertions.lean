import Cowork.TurnProducers

/-!
What is asserted of a turn while its producer runs: whether its buffer is closed, the
records of its stream that belong to an end, and what is known of its saves (`At`, under
`On`). The rules say what writes, units and saves leave of it.
-/
namespace Cowork.TurnAssertions
open Coroutines TurnProducers List
open StreamRecords (TerminalReason)

def marks (turn : Turn) : List Record := turn.stream.filter Record.ends

structure Books where
  saved : Bool
  persisted : Bool
  background : Background
  answers : List Nat
  failed : List Save
  leftBehind : Bool
  held : Bool

def books (turn : Turn) : Books :=
  ⟨turn.saved,turn.persisted,turn.background,turn.answers,turn.failed,turn.leftBehind,turn.held⟩

def Books.count (b : Books) : Nat := b.answers.length + if b.background = .none then 0 else 1

def Books.late (b : Books) : Late → Books
  | .begins => if b.background = .waiting then { b with background := .running } else b
  | .commits messageId =>
    if b.background = .running then { b with answers := b.answers ++ messageId.toList, background := .none } else b
  | .fails => if b.background = .none then b else { b with failed := b.failed ++ [.answer], background := .none }

def Lasting (B : Books → Prop) : Prop := ∀ b late, B b → B (b.late late)

/-- The buffer, the marks of its stream, and what is known of the saves; the writes on their way are frames. -/
structure At (closed : Bool) (ending : List Record) (B : Books → Prop) (turn : Turn) : Prop where
  closed : turn.closed = closed
  marks : marks turn = ending
  loose : ∀ record ∈ turn.loose, record = .frame
  books : B (books turn)

/-- An assertion about turns that are not deleted and, where `strict`, whose ending no cancellation fell into. -/
def On (strict : Bool) (A : Turn → Prop) (turn : Turn) : Prop :=
  turn.stage = .idle → (strict = true → turn.endingCut = false) → A turn

theorem Books.late_quiet {b : Books} (quiet : b.background = .none) (late : Late) : b.late late = b := by
  cases late <;> simp [Books.late,quiet]

theorem lasting_quiet {B : Books → Prop} (quiet : ∀ b, B b → b.background = .none) : Lasting B := by
  intro b late known
  rw [Books.late_quiet (quiet b known)]
  exact known

theorem lasting_count : Lasting fun b => b.count ≤ 1 := by
  intro b late count
  cases late <;> grind [Books.late,Books.count]

theorem lasting_held (h : Bool) : Lasting fun b => b.held = h := by
  intro b late known
  cases late <;> simp only [Books.late] <;> split_ifs <;> exact known

theorem lasting_leftBehind : Lasting fun b => b.leftBehind = true := by
  intro b late known
  cases late <;> simp only [Books.late] <;> split_ifs <;> exact known

theorem outside_idle {e : Event} {turn : Turn} (idle : (outside e turn).stage = .idle) :
    turn.stage = .idle ∧ (outside e turn).endingCut = turn.endingCut ∧ (outside e turn).closed = turn.closed ∧
      ((∀ record ∈ turn.loose, record = .frame) →
        marks (outside e turn) = marks turn ∧ ∀ record ∈ (outside e turn).loose, record = .frame) ∧
      (books (outside e turn) = books turn ∨ ∃ late, books (outside e turn) = (books turn).late late) := by
  cases e with
  | stall stalled | timeOut | shutDown deadline => exact ⟨idle,rfl,rfl,fun loose => ⟨rfl,loose⟩,.inl rfl⟩
  | delete =>
    simp only [outside,Turn.delete] at idle
    cases stage : turn.stage <;> simp [stage] at idle
  | land i =>
    cases found : turn.loose[i]? with
    | none => grind only [outside]
    | some record =>
      simp only [outside,found] at idle ⊢
      refine ⟨idle,rfl,rfl,fun loose => ⟨?_,?_⟩,.inl rfl⟩
      · have frame := loose record (mem_of_getElem? found)
        simp [marks,Turn.write,frame,Record.ends]
      · exact fun other member => loose other (mem_of_mem_eraseIdx member)
  | lose i =>
    exact ⟨idle,rfl,rfl,fun loose => ⟨rfl,fun other member => loose other (mem_of_mem_eraseIdx member)⟩,.inl rfl⟩
  | late late =>
    have alive : turn.stage = .idle := by
      cases late <;> simp only [outside,Turn.late] at idle <;> split_ifs at idle <;> exact idle
    have living : turn.discarded = false := by simp [Turn.discarded,alive]
    refine ⟨alive,?_,?_,fun loose => ⟨?_,?_⟩,.inr ⟨late,?_⟩⟩
    · cases late <;> simp only [outside,Turn.late] <;> split_ifs <;> rfl
    · cases late <;> simp only [outside,Turn.late] <;> split_ifs <;> rfl
    · cases late <;> simp only [outside,Turn.late] <;> split_ifs <;> rfl
    · cases late <;> simp only [outside,Turn.late] <;> split_ifs <;> exact loose
    cases late <;> grind only [outside,Turn.late,Books.late,books,Turn.saveAnswer,Turn.failSave]
  | beside =>
    simp only [outside,Turn.writeBeside] at idle ⊢
    split_ifs at idle ⊢
    · exact ⟨idle,rfl,rfl,fun loose => ⟨rfl,loose⟩,.inl rfl⟩
    · exact ⟨idle,rfl,rfl,fun loose => ⟨rfl,by simpa [or_imp,forall_and] using loose⟩,.inl rfl⟩
    · exact ⟨idle,rfl,rfl,fun loose => ⟨by simp [marks,Turn.write,Record.ends],loose⟩,.inl rfl⟩

section
variable {strict shielded : Bool} {closed : Bool} {ending : List Record} {B B' : Books → Prop} {A : Turn → Prop}

theorem on_outside (steady : ∀ turn e, (outside e turn).stage = .idle → A turn → A (outside e turn)) (e : Event)
    (turn : Turn) (known : On strict A turn) : On strict A (outside e turn) := by grind only [outside_idle,On]

theorem at_outside (lasting : Lasting B) (turn : Turn) (e : Event) (idle : (outside e turn).stage = .idle)
    (known : At closed ending B turn) : At closed ending B (outside e turn) := by
  obtain ⟨-,-,same,calm,saves⟩ := outside_idle idle
  obtain ⟨still,loose⟩ := calm known.loose
  refine ⟨by rw [same]; exact known.closed,by rw [still]; exact known.marks,loose,?_⟩
  rcases saves with same | ⟨late,same⟩
  · rw [same]; exact known.books
  · rw [same]; exact lasting _ late known.books

theorem on_discarded {turn : Turn} (discarded : turn.discarded = true) : On strict A turn := by
  intro idle _
  simp [Turn.discarded,idle] at discarded

section
variable (stable : ∀ e turn, A turn → A (outside e turn))
include stable

theorem ensures_nextFrame (remote : Bool) :
    Ensures false A (nextFrame remote) (fun _ => A) A A := by
  refine ensures_wait stable ?_ ?_ ?_ fun _ turn known => known
  · grind only
  · grind only
  · intro turn answer turn' known replied
    cases answer with
    | stopped stalled =>
      split_ifs at replied
      cases replied; exact stable (.stall (turn.stalled || stalled)) turn known
    | _ => cases replied

theorem ensures_stageFiles :
    Ensures false A stageFiles (fun _ => A) A A := by
  refine ensures_wait stable ?_ ?_ ?_ fun _ turn known => known
  all_goals grind only

theorem ensures_figureSources {C : Turn → Prop} :
    Ensures true A figureSources (fun _ => A) A C := by grind only [ensures_wait,figureSources]

end

theorem At.write {turn : Turn} (known : At closed ending B turn) (record : Record) :
    At closed (ending ++ [record].filter Record.ends) B (turn.write record) := by
  refine ⟨known.closed,?_,known.loose,known.books⟩
  rw [← known.marks]
  exact filter_append _ _

section
variable {X C : Turn → Prop}

/-- Where an ending can be written: inside `run_to_completion`, where no cancellation cuts it (`strict`), or where
    nothing is asserted. -/
def Safe (shielded strict : Bool) (B : Books → Prop) : Prop := shielded = true ∨ strict = true ∨ ∀ b, ¬B b

theorem ensures_append (lasting : Lasting B) {record : Record} (safe : record = .frame ∨ Safe shielded strict B)
    (cancelled : shielded = false → ∀ turn, On strict (At false ending B) turn →
      (record.ends = true → turn.endingCut = true) → C turn) :
    Ensures shielded (On strict (At false ending B)) (append record)
      (fun _ => On strict (At false (ending ++ [record].filter Record.ends) B)) X C := by
  refine ensures_andThen (R := fun _ => On strict (At false ending B)) (ensures_act _ fun _ known => known)
    fun redis => ?_
  cases redis with
  | true =>
    refine ensures_wait (on_outside (at_outside lasting)) ?_ ?_ ?_ ?_
    · intro turn answer a turn' known replied
      split_ifs at replied
      cases replied; exact fun idle whole => (known idle whole).write record
    · intro turn answer turn' known replied
      split_ifs at replied
      cases replied
    · intro turn answer turn' known replied
      split_ifs at replied
      cases replied
    · intro unshielded turn known
      refine cancelled unshielded _ (fun idle whole => ?_) fun ends => by simp [ends]
      obtain ⟨open_,same,loose,saves⟩ := known idle fun asked => (Bool.or_eq_false_iff.mp (whole asked)).1
      have frame : record = .frame := by
        rcases safe with frame | shield | asked | never
        · exact frame
        · rw [unshielded] at shield; cases shield
        · have cut := (Bool.or_eq_false_iff.mp (whole asked)).2
          cases record <;> first | rfl | cases cut
        · exact absurd saves (never _)
      refine ⟨open_,same,fun other member => ?_,saves⟩
      grind only [mem_append,mem_singleton]
  | false =>
    refine ensures_change _ fun turn known idle whole => ?_
    by_cases closed : turn.closed = true
    · grind only [cases At,On]
    · simp only [closed] at idle whole ⊢
      exact (known idle whole).write record

section
variable (lasting : Lasting B)
  (reason : TerminalReason)
  (safe : Safe shielded strict B)
  (cancelled : shielded = false → ∀ turn, On strict (At false ending B) turn → turn.endingCut = true → C turn)
include lasting reason safe cancelled

theorem ensures_writeTerminal :
    Ensures shielded (On strict (At false ending B)) (writeTerminal reason)
      (fun _ => On strict (At true (ending ++ [.terminal reason]) B)) X C := by
  refine ensures_andThen (ensures_append lasting (.inr safe)
    fun unshielded turn known cut => cancelled unshielded turn known (cut rfl)) fun _ => ?_
  refine ensures_change _ fun turn known idle whole => ?_
  obtain ⟨-,same,loose,saves⟩ := known idle whole
  exact ⟨rfl,same,loose,saves⟩

theorem ensures_close :
    Ensures shielded (On strict (At false ending B)) (close reason)
      (fun _ => On strict (At true (ending ++ [.terminal reason]) B)) X C := by
  refine ensures_andThen (ensures_look _) fun closed => ?_
  cases closed with
  | true =>
    refine ensures_ret ?_
    rintro turn ⟨known,closed⟩ idle whole
    rw [(known idle whole).closed] at closed; cases closed
  | false => exact ensures_before (fun turn known => known.1) (ensures_writeTerminal lasting reason safe cancelled)

end

theorem ensures_writing {body : Work Unit} {closed' : Bool} {ending' : List Record}
    (writes : Ensures shielded (On strict (At closed ending B)) body (fun _ => On strict (At closed' ending' B')) X C) :
    Ensures shielded (On strict (At closed ending B)) (writing body) (fun _ => On strict (At closed' ending' B')) X
      C := by
  have calm : ∀ {closed : Bool} {ending : List Record} {B : Books → Prop} (busy : Bool) (turn : Turn),
      On strict (At closed ending B) turn → On strict (At closed ending B) { turn with busy := busy } := by
    intro closed ending B busy turn known idle whole
    obtain ⟨open_,same,loose,saves⟩ := known idle whole
    exact ⟨open_,same,loose,saves⟩
  refine ensures_andThen (ensures_change _ (calm true)) fun _ => ?_
  exact ensures_andThen writes fun _ => ensures_change _ (calm false)

theorem ensures_writingUnchecked {body : Work Unit} {R : Unit → Turn → Prop}
    (writes : Ensures shielded (On strict (At closed ending B)) (writing body) R X C) :
    Ensures shielded (On strict (At closed ending B)) (writingUnchecked body) R X C := by
  refine ensures_andThen (ensures_change _ fun turn known idle whole => ?_) fun _ => writes
  obtain ⟨open_,same,loose,saves⟩ := known idle whole
  exact ⟨open_,same,loose,saves⟩

theorem ensures_report (lasting : Lasting B) {record : Record} (ends : record.ends = true) (reason : TerminalReason)
    (safe : Safe shielded strict B)
    (cancelled : shielded = false → ∀ ending turn, On strict (At false ending B) turn → turn.endingCut = true →
      C turn) :
    Ensures shielded (On strict (At false ending B))
      (do
        append record
        close reason)
      (fun _ => On strict (At true (ending ++ [record,.terminal reason]) B)) X C := by
  have written : ending ++ [record].filter Record.ends = ending ++ [record] := by simp [ends]
  refine ensures_andThen (ensures_append lasting (.inr safe)
    fun unshielded turn known cut => cancelled unshielded _ turn known (cut ends)) fun _ => ?_
  grind only [ensures_close,append_assoc,singleton_append]

end

variable {C X : Turn → Prop} {bounded : Bool}

theorem ensures_unit {A' : Turn → Prop} {R : Option (Option Nat) → Turn → Prop} {save : Save}
    {write : Option Nat → Turn → Turn} (stable : ∀ e turn, A turn → A (outside e turn))
    (stable' : ∀ e turn, A' turn → A' (outside e turn))
    (opens : ∀ turn, A turn → turn.discarded = false → A' turn.openUnit)
    (gone : ∀ turn, A turn → turn.discarded = true → R none turn) (refused : ∀ turn, A turn → X (turn.failSave save))
    (fails : ∀ turn, A' turn → X { turn.failSave save with unitOpen := false })
    (commits : ∀ turn messageId, A' turn → R (some messageId) (write messageId { turn with unitOpen := false }))
    (unheard : bounded = true → ∀ turn, A turn → R none { turn with background := .waiting, leftBehind := true })
    (behind : bounded = true → ∀ turn, A' turn →
      R none { turn with background := .running, leftBehind := true, unitOpen := false }) :
    Ensures true A (unit bounded save write) R X C := by
  refine ensures_andThen (R := fun runs turn => if runs then A' turn else R none turn) ?_ fun runs => ?_
  · refine ensures_wait stable ?_ ?_ ?_ nofun
    all_goals grind only
  grind only [ensures_wait,Ensures,commitUnit,ret]

theorem ensures_unit_steady {R : Option (Option Nat) → Turn → Prop} {save : Save}
    {write : Option Nat → Turn → Turn} (stable : ∀ e turn, A turn → A (outside e turn))
    (opens : ∀ turn, A turn → A turn.openUnit) (gone : ∀ turn, A turn → turn.discarded = true → R none turn)
    (fails : ∀ turn unitOpen, A turn → X { turn.failSave save with unitOpen := unitOpen })
    (commits : ∀ turn messageId, A turn → R (some messageId) (write messageId { turn with unitOpen := false }))
    (late : bounded = true → ∀ turn background unitOpen, A turn → background ≠ .none →
      R none { turn with background := background, leftBehind := true, unitOpen := unitOpen }) :
    Ensures true A (unit bounded save write) R X C :=
  ensures_unit stable stable (fun turn known _ => opens turn known) gone (fun turn => fails turn turn.unitOpen)
    (fun turn => fails turn false) commits
    (fun asked turn known => late asked turn .waiting turn.unitOpen known (by simp))
    fun asked turn known => late asked turn .running false known (by simp)

/-- No save of the answer was tried; `h` is what the source left. -/
structure Unsaved (h : Bool) (b : Books) : Prop where
  answers : b.answers = []
  unfailed : Save.answer ∉ b.failed
  quiet : b.background = .none
  waited : b.leftBehind = false
  held : b.held = h

/-- Once `persist` has returned: at most one answer is saved, the one it names unless its save was left behind. -/
structure Kept (bounded h : Bool) (saved : Saved) (b : Books) : Prop where
  count : b.count ≤ 1
  outcome : bounded = true ∧ b.leftBehind = true ∨ b.background = .none ∧
    if saved.failed then b.answers = [] else b.answers = saved.messageId.toList ∧ Save.answer ∉ b.failed
  held : b.held = h

variable {h : Bool}

theorem lasting_unsaved : Lasting (Unsaved h) := lasting_quiet fun _ known => known.quiet

theorem lasting_kept {saved : Saved} : Lasting (Kept bounded h saved) := by
  intro b late known
  refine ⟨lasting_count b late known.count,?_,lasting_held h b late known.held⟩
  rcases known.outcome with ⟨asked,behind⟩ | ⟨quiet,outcome⟩
  · exact .inl ⟨asked,lasting_leftBehind b late behind⟩
  · rw [Books.late_quiet quiet]; exact .inr ⟨quiet,outcome⟩

theorem count_quiet {b : Books} (quiet : b.background = .none) (few : b.answers.length ≤ 1) : b.count ≤ 1 := by
  simp [Books.count,quiet,few]

theorem toList_length_le (messageId : Option Nat) : messageId.toList.length ≤ 1 := by
  cases messageId <;> simp

theorem ensures_persist (bounded : Bool) :
    Ensures true (On strict (At false [] (Unsaved h))) (persist bounded)
      (fun saved => On strict (At false [] (Kept bounded h saved))) X C := by
  refine ensures_andThen (R := fun _ => On strict (At false [] (Unsaved h))) (ensures_act _ fun _ known => known)
    fun skip => ?_
  cases skip with
  | true =>
    refine ensures_ret fun turn known idle whole => ?_
    obtain ⟨open_,same,loose,saves⟩ := known idle whole
    refine ⟨open_,same,loose,count_quiet saves.quiet (by simp [saves.answers]),.inr ⟨saves.quiet,?_⟩,saves.held⟩
    simp [saves.answers,saves.unfailed]
  | false =>
    refine ensures_andThen (R := fun _ => On strict (At false [] (Unsaved h)))
      (ensures_change _ fun turn known idle whole => ?_) fun _ => ?_
    · obtain ⟨open_,same,loose,saves⟩ := known idle whole
      exact ⟨open_,same,loose,saves.answers,saves.unfailed,saves.quiet,saves.waited,saves.held⟩
    · have saves : Ensures true (On strict (At false [] (Unsaved h)))
          (unit bounded .answer fun messageId turn => turn.saveAnswer messageId)
          (fun committed => On strict (At false [] (Kept bounded h ⟨committed.getD none,false⟩)))
          (On strict (At false [] (Kept bounded h ⟨none,true⟩))) C :=
        ensures_unit_steady (on_outside (at_outside lasting_unsaved)) ?_ ?_ ?_ ?_ ?_
      · exact ensures_handle (ensures_andThen saves fun committed => ensures_ret fun _ => id) (ensures_ret fun _ => id)
          ensures_stop
      · intro turn known idle whole
        obtain ⟨open_,same,loose,saves⟩ := known idle whole
        exact ⟨open_,same,loose,saves⟩
      · exact fun turn _ discarded => on_discarded discarded
      · intro turn unitOpen known idle whole
        obtain ⟨open_,same,loose,saves⟩ := known idle whole
        have nothing : turn.answers = [] := saves.answers
        refine ⟨open_,same,loose,count_quiet saves.quiet ?_,.inr ⟨saves.quiet,saves.answers⟩,saves.held⟩
        simp [books,Turn.failSave,nothing]
      · intro turn messageId known idle whole
        obtain ⟨open_,same,loose,saves⟩ := known idle whole
        have answers : turn.answers ++ messageId.toList = messageId.toList := by
          have nothing : turn.answers = [] := saves.answers
          rw [nothing]; rfl
        refine ⟨open_,same,loose,count_quiet saves.quiet ?_,.inr ⟨saves.quiet,answers,saves.unfailed⟩,saves.held⟩
        show (turn.answers ++ messageId.toList).length ≤ 1
        rw [answers]; exact toList_length_le messageId
      · intro asked turn background unitOpen known busy idle whole
        obtain ⟨open_,same,loose,saves⟩ := known idle whole
        have nothing : turn.answers = [] := saves.answers
        refine ⟨open_,same,loose,?_,.inl ⟨asked,rfl⟩,saves.held⟩
        simp [books,Books.count,nothing,busy]

theorem ensures_start :
    Ensures true (On strict (At false [] (Unsaved h))) start
      (fun started turn => On strict (At false [] (Unsaved h)) turn ∧ (started = false → turn.discarded = true))
      (On strict (At false [] (Unsaved h))) C := by
  refine ensures_andThen (ensures_unit_steady (on_outside (at_outside lasting_unsaved)) ?_ ?_ ?_ ?_ ?_)
    fun committed => ensures_ret fun _ => id
  · intro turn known idle whole
    obtain ⟨open_,same,loose,saves⟩ := known idle whole
    exact ⟨open_,same,loose,saves⟩
  · exact fun turn _ discarded => ⟨on_discarded discarded,fun _ => discarded⟩
  · intro turn unitOpen known idle whole
    obtain ⟨open_,same,loose,saves⟩ := known idle whole
    refine ⟨open_,same,loose,saves.answers,?_,saves.quiet,saves.waited,saves.held⟩
    show Save.answer ∉ turn.failed ++ [.question]
    have unfailed : Save.answer ∉ turn.failed := saves.unfailed
    simp [unfailed]
  · refine fun turn messageId known => ⟨fun idle whole => ?_,nofun⟩
    obtain ⟨open_,same,loose,saves⟩ := known idle whole
    exact ⟨open_,same,loose,saves.answers,saves.unfailed,saves.quiet,saves.waited,saves.held⟩
  · intro never; cases never

end

theorem run_ensures {producer : Producer} {A : Turn → Prop} {P : Turn → Prop}
    (ensures : Ensures false P producer.task (fun _ => A) A A) {redis : Bool} (initial : P (begin redis))
    {script : List (Signal Answer Event)} {turn : Turn} (ran : producer.run redis script = some turn) : A turn := by
  grind only [Option.map_eq_some_iff,Ensures,Producer.run]

end Cowork.TurnAssertions
