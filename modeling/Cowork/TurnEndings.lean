import Cowork.TurnAssertions

/-!
How the producers of a turn end its stream: once, in agreement with what was saved
(`turns_end_once`). Not every ending is as meant (`endings_differ`): a source may end
without a completed frame, a Stop hides the failed save of the question, and
`_produce_direct` may close as cancelled or be cancelled between its last records.
-/
namespace Cowork.TurnEndings
open Coroutines TurnProducers TurnAssertions
open StreamRecords (TerminalReason)

section
variable {strict shielded : Bool} {ending : List Record} {B : Books → Prop} {A : Turn → Prop} {h : Bool}

inductive Ending (direct : Bool) : List Record → Books → Prop where
  | completed {b : Books} (messageId : Option Nat) (reported : b.answers = messageId.toList) (quiet : b.background = .none) :
    Ending direct [.completed messageId,.terminal .completed] b
  | unreported {b : Books} (delegated : direct = false) (nothing : b.held = false) (once : b.count ≤ 1) :
    Ending direct [.terminal .completed] b
  | failed {b : Books} (messageId : Option Nat) {reason : TerminalReason} (kind : reason = .error ∨ reason = .interrupted)
      (once : b.count ≤ 1) : Ending direct [.failed messageId,.terminal reason] b
  | cancelled {b : Books} (once : b.count ≤ 1)
      (outcome : if direct then b.answers = [] ∧ b.background = .none
        else b.leftBehind = true ∨ b.background = .none ∧ Save.answer ∉ b.failed) :
    Ending direct [.terminal .cancelled] b

def Over (direct : Bool) (turn : Turn) : Prop := ∃ ending, At true ending (Ending direct ending) turn

section
variable {X C : Turn → Prop} {direct : Bool}

variable {reason : TerminalReason} {remote : Bool}

theorem ensures_over {P : Turn → Prop} {body : Work Unit} (ends : ∀ b, B b → Ending direct ending b)
    (ensures : Ensures shielded P body (fun _ => On strict (At true ending B)) X C) :
    Ensures shielded P body (fun _ => On strict (Over direct)) X C := by
  refine ensures_weaken ensures (fun _ => id) (fun _ turn closed idle whole => ?_) (fun _ => id) fun _ => id
  have known := closed idle whole
  exact ⟨ending,known.closed,known.marks,known.loose,ends _ known.books⟩

theorem ensures_unlessDiscarded {P : Turn → Prop} {next : Work Unit}
    (ensures : Ensures shielded P next (fun _ => On strict A) X C) :
    Ensures shielded P (look Turn.discarded >>= fun discarded => if discarded then ret () else next)
      (fun _ => On strict A) X C := by
  refine ensures_andThen (ensures_look _) fun discarded => ?_
  cases discarded with
  | true => exact ensures_ret fun turn known => on_discarded known.2
  | false => exact ensures_before (fun turn known => known.1) ensures

theorem ensures_reported (lasting : Lasting B) {record : Record} (ends : record.ends = true)
    (safe : Safe shielded strict B)
    (cancelled : shielded = false → ∀ ending turn, On strict (At false ending B) turn → turn.endingCut = true → C turn)
    (outcome : ∀ b, B b → Ending direct [record,.terminal reason] b) :
    Ensures shielded (On strict (At false [] B))
      (writing do
        append record
        close reason)
      (fun _ => On strict (Over direct)) X C :=
  ensures_over outcome (ensures_writing (ensures_report lasting ends reason safe cancelled))

theorem ensures_closed (lasting : Lasting B) (safe : Safe shielded strict B)
    (cancelled : shielded = false → ∀ ending turn, On strict (At false ending B) turn → turn.endingCut = true → C turn)
    (outcome : ∀ b, B b → Ending direct [.terminal reason] b) :
    Ensures shielded (On strict (At false [] B)) (writing (close reason)) (fun _ => On strict (Over direct)) X C :=
  ensures_over outcome (ensures_writing (ensures_close lasting reason safe fun unshielded => cancelled unshielded _))

theorem ensures_finish :
    Ensures true (On strict (At false [] (Unsaved h))) (finish h) (fun _ => On strict (Over false)) X C := by
  refine ensures_andThen (ensures_persist false) fun saved => ?_
  refine ensures_unlessDiscarded ?_
  by_cases lost : saved.failed = true
  · simp only [lost]
    exact ensures_reported lasting_kept rfl (.inl rfl) nofun
      fun b kept => .failed none (.inl rfl) kept.count
  · simp only [lost]
    cases h with
    | true =>
      refine ensures_reported lasting_kept rfl (.inl rfl) nofun fun b kept => ?_
      rcases kept.outcome with ⟨never,-⟩ | ⟨quiet,outcome⟩
      · cases never
      · rw [if_neg lost] at outcome
        exact .completed _ outcome.1 quiet
    | false =>
      exact ensures_closed lasting_kept (.inl rfl) nofun
        fun b kept => .unreported rfl kept.held kept.count

theorem ensures_endTurn {framed : Bool}
    (kind : framed = true ∧ (reason = .error ∨ reason = .interrupted) ∨ framed = false ∧ reason = .cancelled) :
    Ensures true (On strict (At false [] (Unsaved h))) (endTurn remote reason framed)
      (fun _ => On strict (Over false)) X C := by
  refine ensures_andThen (R := fun _ => On strict (At false [] (Unsaved h))) (ensures_act _ fun _ known => known)
    fun bounded => ?_
  refine ensures_andThen (ensures_persist bounded) fun saved => ?_
  refine ensures_unlessDiscarded ?_
  rcases kind with ⟨rfl,kind⟩ | ⟨rfl,rfl⟩
  · exact ensures_reported lasting_kept rfl (.inl rfl) nofun
      fun b kept => .failed _ kind kept.count
  · by_cases lost : saved.failed = true
    · simp only [lost]
      exact ensures_reported lasting_kept rfl (.inl rfl) nofun
        fun b kept => .failed none (.inl rfl) kept.count
    · simp only [lost]
      refine ensures_closed lasting_kept (.inl rfl) nofun fun b kept => .cancelled kept.count ?_
      grind only [kept.outcome]

def OpenOrOver (turn : Turn) : Prop := At false [] (Unsaved false) turn ∨ Over false turn

theorem ensures_onRaised :
    Ensures false (On strict (At false [] (Unsaved false))) (onRaised remote) (fun _ => On strict (Over false))
      (On strict (Over false)) (On strict (Over false)) :=
  ensures_runToCompletion (ensures_endTurn (.inl ⟨rfl,.inl rfl⟩)) (fun _ _ => id) fun _ => id

theorem ensures_onCancelled :
    Ensures false (On strict OpenOrOver) (onCancelled remote) (fun _ => On strict (Over false))
      (On strict (Over false)) (On strict (Over false)) := by
  refine ensures_andThen (ensures_look _) fun seen => ?_
  by_cases finished : (seen.discarded || seen.closed) = true
  · rw [if_pos finished]
    refine ensures_ret ?_
    rintro turn ⟨known,rfl⟩ idle whole
    rcases known idle whole with open_ | ended
    · have living : turn.discarded = false := by simp [Turn.discarded,idle]
      simp [living,open_.closed] at finished
    · exact ended
  · -- the turn is open: a stream that has ended is closed
    have still : ∀ turn, On strict OpenOrOver turn ∧ id turn = seen → On strict (At false [] (Unsaved false)) turn := by
      rintro turn ⟨known,rfl⟩ idle whole
      rcases known idle whole with open_ | ⟨ending,ended⟩
      · exact open_
      · simp [ended.closed] at finished
    refine ensures_before still ?_
    grind only [ensures_runToCompletion,ensures_endTurn,Ensures,runToCompletion]

theorem ensures_seal : Ensures false (On strict (Over direct)) sealUnterminatedBuffer (fun _ => On strict (Over direct))
    (On strict (Over direct)) (On strict (Over direct)) := by
  refine ensures_andThen (ensures_look _) fun finished => ?_
  cases finished with
  | true => exact ensures_ret fun turn known => known.1
  | false =>
    -- a stream that has ended is closed, so this branch is taken by no turn that is asserted about
    have nobody : ∀ turn, On strict (Over direct) turn ∧ (turn.discarded || turn.closed) = false →
        On strict (At false [] fun _ => False) turn := by
      rintro turn ⟨known,open_⟩ idle whole
      obtain ⟨ending,ended⟩ := known idle whole
      simp [ended.closed] at open_
    refine ensures_before nobody ?_
    refine ensures_reported (fun _ _ => id) rfl (.inr (.inr fun _ => id)) ?_ fun b never => never.elim
    exact fun _ ending turn never _ idle whole => (never idle whole).books.elim

theorem ensures_frame (lasting : Lasting B)
    (cancelled : shielded = false → ∀ turn, On strict (At false ending B) turn → C turn) :
    Ensures shielded (On strict (At false ending B)) (append .frame) (fun _ => On strict (At false ending B)) X C := by
  grind [Record.ends,ensures_append]

theorem ensures_frames (held : Bool) (lasting : Lasting B) :
    Ensures false (On strict (At false ending B)) (loop frameRound held) (fun _ => On strict (At false ending B))
      (On strict (At false ending B)) (On strict (At false ending B)) := by
  refine ensures_loop (I := fun _ => On strict (At false ending B)) (fun held => ?_) held
  refine ensures_andThen (ensures_nextFrame (on_outside (at_outside lasting)) false) fun next => ?_
  cases next with
  | none => exact ensures_ret fun _ => id
  | some completed =>
    refine ensures_andThen (ensures_look _) fun discarded => ?_
    refine ensures_before (fun turn known => known.1) ?_
    cases discarded with
    | true => exact ensures_ret fun _ => id
    | false =>
      cases completed with
      | true => exact ensures_ret fun _ => id
      | false =>
        exact ensures_andThen (ensures_writing (ensures_frame lasting fun _ _ => id)) fun _ => ensures_ret fun _ => id

theorem ensures_replies (first held : Bool) (lasting : Lasting B) :
    Ensures false (On strict (At false ending B)) (loop replyRound (first,held)) (fun _ => On strict (At false ending B))
      (On strict (At false ending B)) (On strict (At false ending B)) := by
  refine ensures_loop (I := fun _ => On strict (At false ending B)) (fun state => ?_) (first,held)
  obtain ⟨first,held⟩ := state
  refine ensures_andThen (ensures_nextFrame (on_outside (at_outside lasting)) true) fun next => ?_
  cases next with
  | none => exact ensures_ret fun _ => id
  | some completed =>
    by_cases keeps : (!first && completed) = true
    · simp only [keeps]
      exact ensures_ret fun _ => id
    · simp only [keeps]
      exact ensures_andThen (ensures_writingUnchecked (ensures_writing (ensures_frame lasting fun _ _ => id)))
        fun _ => ensures_ret fun _ => id

theorem ensures_finishHolding (held : Bool) :
    Ensures false (On strict (At false [] (Unsaved false))) (finishHolding held) (fun _ => On strict (Over false)) X
      (On strict OpenOrOver) := by
  refine ensures_andThen (R := fun _ => On strict (At false [] (Unsaved held))) ?_ fun _ => ?_
  · refine ensures_change _ fun turn known idle whole => ?_
    obtain ⟨open_,same,loose,saves⟩ := known idle whole
    exact ⟨open_,same,loose,saves.answers,saves.unfailed,saves.quiet,saves.waited,rfl⟩
  · refine ensures_weaken (ensures_runToCompletion ensures_finish ?_ fun _ => False.elim)
      (fun _ => id) (fun _ _ => id) (fun _ => False.elim) fun _ => id
    exact fun _ turn known idle whole => .inr (known idle whole)

theorem ensures_openOrOver {α : Type} {body : Work α} {R : α → Turn → Prop}
    (ensures : Ensures false (On strict (At false [] (Unsaved false))) body R (On strict (At false [] (Unsaved false)))
      (On strict (At false [] (Unsaved false)))) :
    Ensures false (On strict (At false [] (Unsaved false))) body R (On strict (At false [] (Unsaved false)))
      (On strict OpenOrOver) :=
  ensures_weaken ensures (fun _ => id) (fun _ _ => id) (fun _ => id) fun _ known idle whole => .inl (known idle whole)

theorem ensures_started :
    Ensures false (On strict (At false [] (Unsaved false))) (runToCompletion start)
      (fun started turn => On strict (At false [] (Unsaved false)) turn ∧ (started = false → turn.discarded = true))
      (On strict (At false [] (Unsaved false))) (On strict OpenOrOver) :=
  ensures_openOrOver (ensures_runToCompletion ensures_start (fun _ _ known => known.1) fun _ => id)

theorem ensures_runTurn : Ensures false (On strict (At false [] (Unsaved false))) runTurn
    (fun _ => On strict (Over false)) (On strict (Over false)) (On strict (Over false)) := by
  refine ensures_afterwards (ensures_handle ?_ ensures_onRaised ensures_onCancelled) ensures_seal
  refine ensures_andThen ensures_started fun started => ?_
  cases started with
  | true =>
    refine ensures_before (fun turn known => known.1) ?_
    exact ensures_andThen (ensures_openOrOver (ensures_frames false lasting_unsaved)) fun held => ensures_finishHolding held
  | false => exact ensures_ret fun turn known => on_discarded (known.2 rfl)

theorem ensures_runRemoteTurn : Ensures false (On strict (At false [] (Unsaved false))) runRemoteTurn
    (fun _ => On strict (Over false)) (On strict (Over false)) (On strict (Over false)) := by
  refine ensures_afterwards (ensures_handle ?_ ensures_onRaised ensures_onCancelled) ensures_seal
  refine ensures_andThen (ensures_openOrOver (ensures_stageFiles (on_outside (at_outside lasting_unsaved)))) fun _ => ?_
  refine ensures_andThen ensures_started fun _ => ensures_before (fun turn known => known.1) ?_
  exact ensures_andThen (ensures_openOrOver (ensures_replies true false lasting_unsaved)) fun held =>
    ensures_finishHolding held

structure Nothing (b : Books) : Prop where
  answers : b.answers = []
  quiet : b.background = .none

structure Answered (messageId : Option Nat) (b : Books) : Prop where
  answers : b.answers = messageId.toList
  quiet : b.background = .none

theorem lasting_nothing : Lasting Nothing := lasting_quiet fun _ known => known.quiet

theorem lasting_answered {messageId : Option Nat} : Lasting (Answered messageId) :=
  lasting_quiet fun _ known => known.quiet

def AfterUnit (strict : Bool) : Option (Option Nat) → Turn → Prop
  | none,turn => turn.discarded = true
  | some messageId,turn => On strict (At false [] (Answered messageId)) turn

theorem ensures_answerDirect {C : Turn → Prop} :
    Ensures true (On strict (At false [] Nothing)) answerDirect (fun _ => On strict (Over true))
      (On strict (At false [] Nothing)) C := by
  refine ensures_andThen (ensures_figureSources (on_outside (at_outside lasting_nothing))) fun sources => ?_
  refine ensures_andThen (R := AfterUnit strict)
    (ensures_unit_steady (on_outside (at_outside lasting_nothing)) ?_ ?_ ?_ ?_ ?_) fun committed => ?_
  · intro turn known idle whole
    obtain ⟨open_,same,loose,saves⟩ := known idle whole
    exact ⟨open_,same,loose,saves⟩
  · exact fun turn _ discarded => discarded
  · intro turn unitOpen known idle whole
    obtain ⟨open_,same,loose,saves⟩ := known idle whole
    exact ⟨open_,same,loose,saves.answers,saves.quiet⟩
  · intro turn messageId known idle whole
    obtain ⟨open_,same,loose,saves⟩ := known idle whole
    refine ⟨open_,same,loose,?_,saves.quiet⟩
    have nothing : turn.answers = [] := saves.answers
    show turn.answers ++ messageId.toList = messageId.toList
    rw [nothing]; rfl
  · intro never; cases never
  refine ensures_andThen (ensures_look _) fun discarded => ?_
  cases committed with
  | none => exact ensures_ret fun turn known => on_discarded known.1
  | some messageId =>
    cases discarded with
    | true => exact ensures_ret fun turn known => on_discarded known.2
    | false =>
      refine ensures_before (fun turn known => known.1) ?_
      have frame := @ensures_frame strict true [] (Answered messageId) (On strict (At false [] Nothing)) C
        lasting_answered nofun
      have writes : Ensures true (On strict (At false [] (Answered messageId)))
          (do
            append .frame
            append .frame
            append .frame
            appendSources sources
            append (.completed messageId)
            close .completed)
          (fun _ => On strict (At true [.completed messageId,.terminal .completed] (Answered messageId)))
          (On strict (At false [] Nothing)) C := by
        refine ensures_andThen frame fun _ => ensures_andThen frame fun _ => ensures_andThen frame fun _ => ?_
        refine ensures_andThen (R := fun _ => On strict (At false [] (Answered messageId))) ?_ fun _ => ?_
        · cases sources with
          | true => exact frame
          | false => exact ensures_ret fun _ => id
        · exact ensures_report lasting_answered rfl .completed (.inl rfl) nofun
      exact ensures_over (fun b saves => .completed messageId saves.answers saves.quiet) (ensures_writing writes)

theorem on_cut {turn : Turn} (cut : turn.endingCut = true) : On true A turn := by
  intro _ whole
  rw [whole rfl] at cut
  cases cut

theorem nothing_once {b : Books} (saves : Nothing b) : b.count ≤ 1 := count_quiet saves.quiet (by simp [saves.answers])

theorem ensures_closeCancelled :
    Ensures false (On true fun turn => At false [] Nothing turn ∨ Over true turn) (writing (close .cancelled))
      (fun _ => On true (Over true)) X (On true (Over true)) := by
  have calm : ∀ (busy : Bool) (turn : Turn), Over true turn → Over true { turn with busy := busy } := by
    rintro busy turn ⟨ending,open_,same,loose,saves⟩; exact ⟨ending,open_,same,loose,saves⟩
  refine ensures_andThen (R := fun _ => On true fun turn => At false [] Nothing turn ∨ Over true turn) ?_ fun _ => ?_
  · refine ensures_change _ fun turn known idle whole => ?_
    rcases known idle whole with ⟨open_,same,loose,saves⟩ | finished
    · exact .inl ⟨open_,same,loose,saves⟩
    · exact .inr (calm true turn finished)
  refine ensures_andThen (R := fun _ => On true (Over true)) ?_ fun _ =>
    ensures_change _ fun turn known idle whole => calm false turn (known idle whole)
  refine ensures_andThen (ensures_look _) fun closed => ?_
  cases closed with
  | true => grind only [ensures_ret,On,cases At]
  | false =>
    have open_ : ∀ turn, (On true fun turn => At false [] Nothing turn ∨ Over true turn) turn ∧ turn.closed = false →
        On true (At false [] Nothing) turn := by
      rintro turn ⟨known,closed⟩ idle whole
      rcases known idle whole with open_ | ⟨ending,finished⟩
      · exact open_
      · rw [finished.closed] at closed; cases closed
    refine ensures_before open_ ?_
    exact ensures_over (fun b saves => .cancelled (nothing_once saves) ⟨saves.answers,saves.quiet⟩)
      (ensures_writeTerminal lasting_nothing .cancelled (.inr (.inl rfl)) fun _ _ _ => on_cut)

theorem ensures_produceDirect : Ensures false (On true (At false [] Nothing)) produceDirect
    (fun _ => On true (Over true)) (On true (Over true)) (On true (Over true)) := by
  have answers : Ensures false (On true (At false [] Nothing)) (runToCompletion answerDirect)
      (fun _ => On true (Over true)) (On true (At false [] Nothing))
      (On true fun turn => At false [] Nothing turn ∨ Over true turn) :=
    ensures_runToCompletion ensures_answerDirect (fun _ _ known idle whole => .inr (known idle whole))
      fun _ known idle whole => .inl (known idle whole)
  refine ensures_afterwards (ensures_handle answers ?_ ?_) ensures_seal
  · exact ensures_writingUnchecked (ensures_reported lasting_nothing rfl (.inr (.inl rfl)) (fun _ _ _ _ => on_cut)
      fun b saves => .failed none (.inl rfl) (nothing_once saves))
  · exact ensures_unlessDiscarded ensures_closeCancelled

def OnFile (turn : Turn) : Prop := turn.redis = false ∧ turn.endingCut = false

theorem onFile_outside (e : Event) (turn : Turn) (known : OnFile turn) : OnFile (outside e turn) := by
  cases e with
  | delete =>
    simp only [outside,Turn.delete]
    split <;> exact known
  | land i =>
    simp only [outside]
    split <;> exact known
  | late late => cases late <;> simp only [outside,Turn.late] <;> split_ifs <;> exact known
  | beside =>
    simp only [outside,Turn.writeBeside]
    split_ifs <;> exact known
  | _ => exact known

theorem onFile_append (record : Record) : Ensures shielded OnFile (append record) (fun _ => OnFile) X C := by
  refine ensures_andThen (ensures_look _) fun redis => ?_
  cases redis with
  | true => grind only [Ensures,OnFile]
  | false =>
    refine ensures_change _ fun turn known => ?_
    split_ifs
    · exact known.1
    · exact known.1

theorem onFile_close (reason : TerminalReason) : Ensures shielded OnFile (close reason) (fun _ => OnFile) X C := by
  refine ensures_andThen (ensures_look _) fun closed => ensures_before (fun turn known => known.1) ?_
  cases closed with
  | true => exact ensures_ret fun _ => id
  | false => exact ensures_andThen (onFile_append _) fun _ => ensures_change _ fun turn known => known

theorem onFile_writing {body : Work Unit} (writes : Ensures shielded OnFile body (fun _ => OnFile) X C) :
    Ensures shielded OnFile (writing body) (fun _ => OnFile) X C :=
  ensures_andThen (ensures_change _ fun _ known => known) fun _ =>
    ensures_andThen writes fun _ => ensures_change _ fun _ known => known

theorem onFile_report (record : Record) (reason : TerminalReason) :
    Ensures shielded OnFile
      (writing do
        append record
        close reason)
      (fun _ => OnFile) X C :=
  onFile_writing (ensures_andThen (onFile_append record) fun _ => onFile_close reason)

theorem onFile_answerDirect : Ensures true OnFile answerDirect (fun _ => OnFile) OnFile OnFile := by
  refine ensures_andThen (ensures_figureSources onFile_outside) fun sources => ?_
  refine ensures_andThen (R := fun _ => OnFile) ?_ fun committed => ?_
  · exact ensures_unit_steady onFile_outside (fun _ known => known) (fun _ known _ => known) (fun _ _ known => known)
      (fun _ _ known => known) fun _ _ _ _ known _ => known
  refine ensures_andThen (ensures_look _) fun discarded => ensures_before (fun turn known => known.1) ?_
  cases committed with
  | none => exact ensures_ret fun _ => id
  | some messageId =>
    cases discarded with
    | true => exact ensures_ret fun _ => id
    | false =>
      refine onFile_writing ?_
      refine ensures_andThen (onFile_append _) fun _ => ensures_andThen (onFile_append _) fun _ =>
        ensures_andThen (onFile_append _) fun _ => ?_
      refine ensures_andThen ?_ fun _ =>
        ensures_andThen (onFile_append _) fun _ => onFile_close _
      cases sources with
      | true => exact onFile_append _
      | false => exact ensures_ret fun _ => id

theorem onFile_produceDirect : Ensures false OnFile produceDirect (fun _ => OnFile) OnFile OnFile := by
  have answers : Ensures false OnFile (runToCompletion answerDirect) (fun _ => OnFile) OnFile OnFile :=
    ensures_runToCompletion onFile_answerDirect (fun _ _ => id) fun _ => id
  refine ensures_afterwards (ensures_handle answers ?_ ?_) ?_
  · exact ensures_andThen (ensures_change _ fun _ known => known) fun _ => onFile_report _ _
  · refine ensures_andThen (ensures_look _) fun discarded => ensures_before (fun turn known => known.1) ?_
    cases discarded with
    | true => exact ensures_ret fun _ => id
    | false => exact onFile_writing (onFile_close _)
  · refine ensures_andThen (ensures_look _) fun finished => ensures_before (fun turn known => known.1) ?_
    cases finished with
    | true => exact ensures_ret fun _ => id
    | false => exact onFile_report _ _

end

end

def reason : Record → Option TerminalReason
  | .terminal reason => some reason
  | _ => none

def reported : Record → Option (Option Nat)
  | .completed messageId => some messageId
  | _ => none

/-- A turn has one terminal record, and no other to come, and at most one saved answer. A completed frame stands in a
    completed stream and reports the saved answer; such a stream has it unless a delegated turn's source ended without
    one. A cancelled stream is a delegated turn's whose answer's save did not fail, as far as it was waited for, or a
    direct turn's that saved nothing. -/
structure EndsOnce (producer : Producer) (turn : Turn) (end_ : TerminalReason) : Prop where
  terminal : turn.stream.filterMap reason = [end_]
  settled : turn.loose.filterMap reason = []
  once : turn.answers.length + (if turn.background = .none then 0 else 1) ≤ 1
  truthful : ∀ messageId ∈ turn.stream.filterMap reported, end_ = .completed ∧ turn.answers = messageId.toList
  completed : end_ = .completed → turn.stream.filterMap reported ≠ [] ∨ producer ≠ .direct ∧ turn.held = false
  cancelled : end_ = .cancelled →
    if producer = .direct then turn.answers = [] else Save.answer ∉ turn.failed ∨ turn.leftBehind = true

theorem filterMap_marks {α : Type} {f : Record → Option α} (frame : f .frame = none) (turn : Turn) :
    turn.stream.filterMap f = (marks turn).filterMap f := by
  unfold marks
  rw [List.filterMap_filter]
  congr 1
  funext record
  cases record <;> simp [Record.ends,frame]

theorem endsOnce_of_over {producer : Producer} {direct : Bool} (kind : direct = true ↔ producer = .direct) {turn : Turn}
    (finished : Over direct turn) : ∃ end_, EndsOnce producer turn end_ := by
  obtain ⟨ending,-,same,loose,saves⟩ := finished
  have settled : turn.loose.filterMap reason = [] := by
    rw [List.filterMap_eq_nil_iff]
    intro record member
    rw [loose record member]; rfl
  have reasons : turn.stream.filterMap reason = ending.filterMap reason := by rw [filterMap_marks rfl,same]
  have reports : turn.stream.filterMap reported = ending.filterMap reported := by rw [filterMap_marks rfl,same]
  cases saves with
  | completed messageId answers quiet =>
    have quiet : turn.background = .none := quiet
    have answers : turn.answers = messageId.toList := answers
    refine ⟨.completed,reasons,settled,?_,?_,fun _ => .inl ?_,nofun⟩
    all_goals grind [reported]
  | unreported delegated nothing once =>
    refine ⟨.completed,reasons,settled,once,?_,fun _ => .inr ⟨?_,nothing⟩,nofun⟩
    · intro other member
      rw [reports] at member; cases member
    · intro same
      rw [kind.mpr same] at delegated; cases delegated
  | failed messageId cause once =>
    refine ⟨_,reasons,settled,once,?_,?_,?_⟩
    · intro other member
      rw [reports] at member; cases member
    all_goals grind only
  | cancelled once outcome =>
    refine ⟨.cancelled,reasons,settled,once,?_,nofun,fun _ => ?_⟩
    · intro other member
      rw [reports] at member; cases member
    grind only [books]

theorem begin_unsaved (redis : Bool) : On false (At false [] (Unsaved false)) (begin redis) :=
  fun _ _ => ⟨rfl,rfl,by simp [begin],rfl,by simp [begin,books],rfl,rfl,rfl⟩

theorem begin_nothing (redis : Bool) : On true (At false [] Nothing) (begin redis) :=
  fun _ _ => ⟨rfl,rfl,by simp [begin],rfl,rfl⟩

/-- Every turn that is not deleted ends its stream once and as its saves went, whatever
    its source does, however its units end, and wherever it is cancelled; but for a direct
    turn on the Redis buffer whose last writes a cancellation falls into. -/
theorem turns_end_once (producer : Producer) (redis : Bool) (script : List (Signal Answer Event)) (turn : Turn)
    (ran : producer.run redis script = some turn) (kept : turn.stage = .idle)
    (whole : producer = .direct → redis = true → turn.endingCut = false) :
    ∃ end_, EndsOnce producer turn end_ := by
  cases producer with
  | inProcess =>
    have known := @run_ensures .inProcess _ _ (@ensures_runTurn false) redis (begin_unsaved redis) script turn ran
    exact endsOnce_of_over (by simp) (known kept (by simp))
  | remote =>
    have known := @run_ensures .remote _ _ (@ensures_runRemoteTurn false) redis (begin_unsaved redis) script turn ran
    exact endsOnce_of_over (by simp) (known kept (by simp))
  | direct =>
    have known := @run_ensures .direct _ _ ensures_produceDirect redis (begin_nothing redis) script turn ran
    refine endsOnce_of_over (by simp) (known kept fun _ => ?_)
    cases redis with
    | true => exact whole rfl rfl
    | false => exact (@run_ensures .direct _ _ onFile_produceDirect false ⟨rfl,rfl⟩ script turn ran).2

def stoppedRun : List (Signal Answer Event) :=
  [.answer .begins,.answer (.commits none),.answer (.frame false),.answer .written,.answer (.frame true),.answer .exhausted,
    .answer .begins,.cancel,.answer (.commits (some 7)),.answer .written,.answer .written]

theorem stoppedRun_ends_once : ∃ turn, Producer.run .inProcess true stoppedRun = some turn ∧
    turn.stream = [.frame,.completed (some 7),.terminal .completed] ∧ ∃ end_, EndsOnce .inProcess turn end_ := by
  have ends : (Producer.run .inProcess true stoppedRun).map (fun turn => (turn.stream,turn.stage)) =
      some ([.frame,.completed (some 7),.terminal .completed],.idle) := by decide +kernel
  obtain ⟨turn,ran,same⟩ := Option.map_eq_some_iff.mp ends
  obtain ⟨stream,idle⟩ := Prod.mk.inj same
  exact ⟨turn,ran,stream,turns_end_once .inProcess true stoppedRun turn ran idle nofun⟩

/-- One terminal record; at most one answer; a completed frame, which reports it, exactly in a completed stream; and
    no failed save in a cancelled one. -/
def AsMeant (turn : Turn) : Prop :=
  match turn.stream.filterMap reason with
  | [end_] => turn.answers.length ≤ 1 ∧ (turn.stream.filterMap reported ≠ [] ↔ end_ = .completed) ∧
      (∀ messageId ∈ turn.stream.filterMap reported, turn.answers = messageId.toList) ∧
      (end_ = .cancelled → turn.failed = [])
  | _ => False

instance (turn : Turn) : Decidable (AsMeant turn) := by
  unfold AsMeant
  split <;> infer_instance

def unreportedRun : List (Signal Answer Event) :=
  [.answer .begins,.answer (.commits none),.answer .exhausted,.answer .begins,.answer (.commits none),.answer .written]

def lostQuestionRun : List (Signal Answer Event) := [.answer .begins,.cancel,.answer .fails,.answer .written]

def lostAnswerRun : List (Signal Answer Event) :=
  [.answer (.sources false),.answer .begins,.cancel,.answer .fails,.answer .written]

def unendedRun : List (Signal Answer Event) :=
  [.answer (.sources false),.answer .begins,.cancel,.answer .fails,.cancel,.cancel]

def endedTwiceRun : List (Signal Answer Event) :=
  [.answer (.sources false),.answer .begins,.cancel,.answer .fails,.cancel,.event (.land 0),.answer .written,.answer .written]

/-- What a run leaves: the stream, the saves that failed, and whether it is as meant. -/
def outcome (producer : Producer) (script : List (Signal Answer Event)) : Option (List Record × List Save × Bool) :=
  (producer.run true script).map fun turn => (turn.stream,turn.failed,decide (AsMeant turn))

theorem endings_differ :
    outcome .inProcess unreportedRun = some ([.terminal .completed],[],false) ∧
    outcome .inProcess lostQuestionRun = some ([.terminal .cancelled],[.question],false) ∧
    outcome .direct lostAnswerRun = some ([.terminal .cancelled],[.answer],false) ∧
    outcome .direct unendedRun = some ([],[.answer],false) ∧
    outcome .direct endedTwiceRun = some ([.terminal .cancelled,.failed none,.terminal .error],[.answer],false) := by
  refine ⟨?_,?_,?_,?_,?_⟩
  all_goals decide +kernel

end Cowork.TurnEndings
