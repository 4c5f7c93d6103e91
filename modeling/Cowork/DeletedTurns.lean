import Cowork.Transitions
import Cowork.TurnAssertions

/-!
A turn that is deleted while it is being answered. The delete and the producer share no
lock: the producer looks at the flag that `registry.discard` sets and acts on what it
saw in a later step, and the writers beside it do not look at it. How the two meet is in
`deleted_turns_leave_traces`.
-/
namespace Cowork.DeletedTurns
open Coroutines Transitions TurnProducers TurnAssertions
open StreamRecords (TerminalReason)

/-- A delete that did not meet the producer: no rows and no unit after its commit, no write after its flag, and no
    records after it has removed the buffers. -/
structure Apart (turn : Turn) : Prop where
  rows : turn.stage ≠ .idle → turn.rows = []
  units : turn.stage ≠ .idle → turn.unitOpen = false ∧ turn.background ≠ .running
  writes : turn.discarded = true → turn.busy = false ∧ turn.loose = []
  scanned : turn.stage = .scanned false → turn.stream = []
  removed : turn.stage = .removed → turn.stream = []

def Clean (turn : Turn) : Prop := turn.raced = false → Apart turn

def CleanUnit (turn : Turn) : Prop := Clean turn ∧ turn.unitOpen = true

def CleanWrite (turn : Turn) : Prop := Clean turn ∧ turn.busy = true

section
variable {turn : Turn}

theorem not_discarded (idle : turn.stage = .idle) : turn.discarded = false := by simp [Turn.discarded,idle]

theorem apart_idle (idle : turn.stage = .idle) : Apart turn := by
  constructor <;> simp [idle,not_discarded idle]

theorem apart_undiscarded (rows : turn.stage ≠ .idle → turn.rows = [])
    (units : turn.stage ≠ .idle → turn.unitOpen = false ∧ turn.background ≠ .running)
    (kept : turn.discarded = false) : Apart turn := by
  refine ⟨rows,units,?_,?_,?_⟩
  all_goals grind only [Turn.discarded]

theorem idle_of_not_cut (kept : turn.discarded = false) (uncut : turn.stage ≠ .cut) : turn.stage = .idle := by
  cases stage : turn.stage with
  | idle => rfl
  | cut => exact absurd stage uncut
  | _ => simp [Turn.discarded,stage] at kept

theorem clean_delete (clean : Clean turn) : Clean turn.delete := by
  intro apart
  cases stage : turn.stage with
  | idle =>
    simp only [Turn.delete,stage,Bool.or_eq_false_iff,decide_eq_false_iff_not] at apart ⊢
    exact apart_undiscarded (fun _ => rfl) (fun _ => ⟨apart.1.2,apart.2⟩) rfl
  | cut =>
    simp only [Turn.delete,stage,Bool.or_eq_false_iff,Bool.not_eq_false',List.isEmpty_iff] at apart ⊢
    obtain ⟨⟨before,idle⟩,settled⟩ := apart
    have known := clean before
    refine ⟨fun _ => known.rows (by simp [stage]),fun _ => known.units (by simp [stage]),fun _ => ⟨idle,settled⟩,?_,?_⟩
    all_goals
      intro never; cases never
  | discarded | scanned =>
    simp only [Turn.delete,stage] at apart ⊢
    have known := clean apart
    refine ⟨fun _ => known.rows (by simp [stage]),fun _ => known.units (by simp [stage]),
      fun _ => known.writes (by simp [Turn.discarded,stage]),?_,?_⟩
    all_goals grind only [known.scanned,= List.isEmpty_iff]
  | removed =>
    simp only [Turn.delete,stage] at apart ⊢
    exact clean apart

theorem clean_late (clean : Clean turn) (late : Late) : Clean (turn.late late) := by
  cases late with
  | begins =>
    simp only [Turn.late]
    split_ifs with waiting gone
    · intro apart
      have known := clean apart
      exact ⟨known.rows,fun deleted => ⟨(known.units deleted).1,by simp⟩,known.writes,known.scanned,known.removed⟩
    all_goals grind only [idle_of_not_cut,apart_idle,Clean]
  | commits messageId =>
    simp only [Turn.late]
    split_ifs with running
    · intro apart
      grind only [apart_idle,cases Apart,Clean,Turn.saveAnswer]
    · exact clean
  | fails =>
    simp only [Turn.late]
    split_ifs
    · exact clean
    · intro apart
      have known := clean apart
      exact ⟨known.rows,fun deleted => ⟨(known.units deleted).1,by simp⟩,known.writes,known.scanned,known.removed⟩

theorem clean_land (clean : Clean turn) (i : Nat) : Clean (outside (.land i) turn) := by
  cases found : turn.loose[i]? with
  | none =>
    simp only [outside,found]
    exact clean
  | some record =>
    simp only [outside,found]
    intro apart
    have known := clean apart
    have kept : turn.discarded = false := by
      by_contra gone
      rw [(known.writes (by simpa using gone)).2] at found; cases found
    exact apart_undiscarded known.rows known.units kept

theorem clean_beside (clean : Clean turn) : Clean turn.writeBeside := by
  unfold Turn.writeBeside
  split_ifs
  · exact clean
  all_goals
    intro apart
    obtain ⟨before,kept⟩ := Bool.or_eq_false_iff.mp apart
    exact apart_undiscarded (clean before).rows (clean before).units kept

theorem clean_outside (e : Event) (turn : Turn) (clean : Clean turn) : Clean (outside e turn) := by
  cases e with
  | delete => exact clean_delete clean
  | land i => exact clean_land clean i
  | late late => exact clean_late clean late
  | beside => exact clean_beside clean
  | lose i =>
    intro apart
    have known := clean apart
    refine ⟨known.rows,known.units,fun gone => ⟨(known.writes gone).1,?_⟩,known.scanned,known.removed⟩
    show turn.loose.eraseIdx i = []
    rw [(known.writes gone).2]; rfl
  | _ =>
    intro apart
    have known := clean apart
    exact ⟨known.rows,known.units,known.writes,known.scanned,known.removed⟩

theorem outside_active (e : Event) (turn : Turn) :
    (outside e turn).unitOpen = turn.unitOpen ∧ (outside e turn).busy = turn.busy := by
  cases e with
  | delete =>
    simp only [outside,Turn.delete]
    split <;> exact ⟨rfl,rfl⟩
  | land i =>
    simp only [outside]
    split <;> exact ⟨rfl,rfl⟩
  | late late => cases late <;> simp only [outside,Turn.late] <;> split_ifs <;> exact ⟨rfl,rfl⟩
  | beside =>
    simp only [outside,Turn.writeBeside]
    split_ifs <;> exact ⟨rfl,rfl⟩
  | _ => exact ⟨rfl,rfl⟩

theorem cleanUnit_outside (e : Event) (turn : Turn) (known : CleanUnit turn) : CleanUnit (outside e turn) :=
  ⟨clean_outside e turn known.1,(outside_active e turn).1.trans known.2⟩

theorem cleanWrite_outside (e : Event) (turn : Turn) (known : CleanWrite turn) : CleanWrite (outside e turn) :=
  ⟨clean_outside e turn known.1,(outside_active e turn).2.trans known.2⟩

theorem CleanUnit.idle (known : CleanUnit turn) (apart : turn.raced = false) : turn.stage = .idle := by
  by_contra deleted
  have closed := ((known.1 apart).units deleted).1
  rw [known.2] at closed
  cases closed

theorem CleanWrite.undiscarded (known : CleanWrite turn) (apart : turn.raced = false) : turn.discarded = false := by
  by_contra gone
  have calm := ((known.1 apart).writes (by simpa using gone)).1
  rw [known.2] at calm
  cases calm

end

section
variable {shielded : Bool} {X : Turn → Prop}

theorem clean_append (record : Record) : Ensures shielded CleanWrite (append record) (fun _ => CleanWrite) X Clean := by
  have written : ∀ turn, CleanWrite turn → CleanWrite (turn.write record) := by
    refine fun turn known => ⟨fun apart => ?_,known.2⟩
    exact apart_undiscarded (known.1 apart).rows (known.1 apart).units (known.undiscarded apart)
  refine ensures_andThen (R := fun _ => CleanWrite) (ensures_act _ fun _ known => known) fun redis => ?_
  cases redis with
  | true =>
    refine ensures_wait cleanWrite_outside ?_ ?_ ?_ ?_
    · intro turn answer a turn' known replied
      split_ifs at replied
      cases replied; exact written turn known
    · intro turn answer turn' known replied
      split_ifs at replied
      cases replied
    · intro turn answer turn' known replied
      split_ifs at replied
      cases replied
    · intro _ turn known apart
      exact apart_undiscarded (known.1 apart).rows (known.1 apart).units (known.undiscarded apart)
  | false =>
    refine ensures_change _ fun turn known => ?_
    split_ifs
    · exact known
    · exact written turn known

theorem clean_close (reason : TerminalReason) :
    Ensures shielded CleanWrite (close reason) (fun _ => CleanWrite) X Clean := by
  refine ensures_andThen (ensures_look _) fun closed => ensures_before (fun turn known => known.1) ?_
  cases closed with
  | true => exact ensures_ret fun _ => id
  | false =>
    refine ensures_andThen (clean_append _) fun _ => ensures_change _ fun turn known => ⟨fun apart => ?_,known.2⟩
    exact apart_undiscarded (known.1 apart).rows (known.1 apart).units (known.undiscarded apart)

def Checked (turn : Turn) : Prop := Clean turn ∧ (turn.raced = false → turn.discarded = false)

theorem clean_writing {body : Work Unit} (writes : Ensures shielded CleanWrite body (fun _ => CleanWrite) X Clean) :
    Ensures shielded Checked (writing body) (fun _ => Clean) X Clean := by
  refine ensures_andThen ?_ fun _ => ensures_andThen writes fun _ => ?_
  · refine ensures_change _ fun turn known => ⟨fun apart => ?_,rfl⟩
    exact apart_undiscarded (known.1 apart).rows (known.1 apart).units (known.2 apart)
  · refine ensures_change _ fun turn known apart => ?_
    exact apart_undiscarded (known.1 apart).rows (known.1 apart).units (known.undiscarded apart)

theorem clean_writingUnchecked {body : Work Unit}
    (writes : Ensures shielded CleanWrite body (fun _ => CleanWrite) X Clean) :
    Ensures shielded Clean (writingUnchecked body) (fun _ => Clean) X Clean := by
  refine ensures_andThen (ensures_change _ fun turn clean => ⟨fun apart => ?_,fun apart => ?_⟩)
    fun _ => clean_writing writes
  · have known := clean (Bool.or_eq_false_iff.mp apart).1
    exact ⟨known.rows,known.units,known.writes,known.scanned,known.removed⟩
  · exact (Bool.or_eq_false_iff.mp apart).2

theorem clean_report (record : Record) (reason : TerminalReason) :
    Ensures shielded CleanWrite
      (do
        append record
        close reason)
      (fun _ => CleanWrite) X Clean :=
  ensures_andThen (clean_append record) fun _ => clean_close reason

theorem clean_unit {C : Turn → Prop} (bounded : Bool) (save : Save) {write : Option Nat → Turn → Turn}
    (kept : ∀ messageId turn, (write messageId turn).stage = turn.stage ∧ (write messageId turn).raced = turn.raced) :
    Ensures true Clean (unit bounded save write) (fun _ => Clean) Clean C := by
  refine ensures_unit clean_outside cleanUnit_outside ?_ (fun _ known _ => known) ?_ ?_ ?_ ?_ ?_
  · grind only [apart_idle,Clean,CleanUnit,Turn.discarded,Turn.openUnit]
  · intro turn clean apart
    have known := clean apart
    exact ⟨known.rows,known.units,known.writes,known.scanned,known.removed⟩
  · exact fun turn known apart => apart_idle (known.idle apart)
  · intro turn messageId known apart
    grind only [apart_idle,known.idle]
  · intro _ turn clean apart
    have known := clean apart
    exact ⟨known.rows,fun deleted => ⟨(known.units deleted).1,by simp⟩,known.writes,known.scanned,known.removed⟩
  · exact fun _ turn known apart => apart_idle (known.idle apart)

theorem clean_start {C : Turn → Prop} : Ensures true Clean start (fun _ => Clean) Clean C :=
  ensures_andThen (clean_unit false .question fun _ _ => ⟨rfl,rfl⟩) fun _ => ensures_ret fun _ => id

theorem clean_persist (bounded : Bool) : Ensures true Clean (persist bounded) (fun _ => Clean) X Clean := by
  refine ensures_andThen (R := fun _ => Clean) (ensures_act _ fun _ known => known) fun skip => ?_
  cases skip with
  | true => exact ensures_ret fun _ => id
  | false =>
    refine ensures_andThen (R := fun _ => Clean) ?_ fun _ => ?_
    · refine ensures_change _ fun turn clean apart => ?_
      have known := clean apart
      exact ⟨known.rows,known.units,known.writes,known.scanned,known.removed⟩
    · have saves : Ensures true Clean (unit bounded .answer fun messageId turn => turn.saveAnswer messageId)
          (fun _ => Clean) Clean Clean := clean_unit bounded .answer fun _ _ => ⟨rfl,rfl⟩
      exact ensures_handle (ensures_andThen saves fun _ => ensures_ret fun _ => id) (ensures_ret fun _ => id) ensures_stop

theorem clean_unlessDiscarded {body : Work Unit} (goes : Ensures shielded Checked body (fun _ => Clean) X Clean) :
    Ensures shielded Clean (look (·.discarded) >>= fun discarded => if discarded then ret () else body)
      (fun _ => Clean) X Clean := by
  refine ensures_andThen (ensures_look _) fun discarded => ?_
  cases discarded with
  | true => exact ensures_ret fun _ known => known.1
  | false => exact ensures_before (fun _ known => ⟨known.1,fun _ => known.2⟩) goes

theorem clean_finish (held : Bool) : Ensures true Clean (finish held) (fun _ => Clean) X Clean := by
  refine ensures_andThen (clean_persist false) fun saved => clean_unlessDiscarded ?_
  split_ifs
  · exact clean_writing (clean_report _ _)
  · exact clean_writing (clean_report _ _)
  · exact clean_writing (clean_close _)

theorem clean_endTurn (remote : Bool) (reason : TerminalReason) (framed : Bool) :
    Ensures true Clean (endTurn remote reason framed) (fun _ => Clean) X Clean := by
  refine ensures_andThen (R := fun _ => Clean) (ensures_act _ fun _ known => known) fun bounded => ?_
  refine ensures_andThen (clean_persist bounded) fun saved => clean_unlessDiscarded ?_
  split_ifs
  · exact clean_writing (clean_report _ _)
  · exact clean_writing (clean_report _ _)
  · exact clean_writing (clean_close _)

theorem clean_runToCompletion {α : Type} {work : Work α} (does : Ensures true Clean work (fun _ => Clean) Clean Clean) :
    Ensures shielded Clean (runToCompletion work) (fun _ => Clean) Clean Clean :=
  ensures_runToCompletion does (fun _ _ => id) fun _ => id

theorem clean_onRaised (remote : Bool) : Ensures false Clean (onRaised remote) (fun _ => Clean) Clean Clean :=
  clean_runToCompletion (clean_endTurn _ _ _)

theorem clean_onCancelled (remote : Bool) : Ensures false Clean (onCancelled remote) (fun _ => Clean) Clean Clean := by
  refine ensures_andThen (R := fun _ => Clean) (ensures_act _ fun _ known => known) fun turn => ?_
  grind only [ensures_ret,clean_runToCompletion,clean_endTurn]

theorem clean_seal : Ensures false Clean sealUnterminatedBuffer (fun _ => Clean) Clean Clean := by
  refine ensures_andThen (ensures_look _) fun finished => ?_
  cases finished with
  | true => exact ensures_ret fun _ known => known.1
  | false =>
    refine ensures_before ?_ (clean_writing (clean_report _ _))
    exact fun _ known => ⟨known.1,fun _ => (Bool.or_eq_false_iff.mp known.2).1⟩

theorem clean_frames (held : Bool) : Ensures false Clean (loop frameRound held) (fun _ => Clean) Clean Clean := by
  refine ensures_loop (I := fun _ => Clean) (fun held => ?_) held
  refine ensures_andThen (ensures_nextFrame clean_outside false) fun next => ?_
  cases next with
  | none => exact ensures_ret fun _ => id
  | some completed =>
    refine ensures_andThen (ensures_look _) fun discarded => ?_
    cases discarded with
    | true => exact ensures_ret fun _ known => known.1
    | false =>
      cases completed with
      | true => exact ensures_ret fun _ known => known.1
      | false =>
        refine ensures_andThen (ensures_before ?_ (clean_writing (clean_append _))) fun _ => ensures_ret fun _ => id
        exact fun _ known => ⟨known.1,fun _ => known.2⟩

theorem clean_replies (state : Bool × Bool) :
    Ensures false Clean (loop replyRound state) (fun _ => Clean) Clean Clean := by
  refine ensures_loop (I := fun _ => Clean) (fun state => ?_) state
  obtain ⟨first,held⟩ := state
  refine ensures_andThen (ensures_nextFrame clean_outside true) fun next => ?_
  cases next with
  | none => exact ensures_ret fun _ => id
  | some completed =>
    by_cases keeps : (!first && completed) = true
    · simp only [keeps]
      exact ensures_ret fun _ => id
    · simp only [keeps]
      exact ensures_andThen (clean_writingUnchecked (clean_append _)) fun _ => ensures_ret fun _ => id

theorem clean_finishHolding (held : Bool) : Ensures false Clean (finishHolding held) (fun _ => Clean) Clean Clean := by
  refine ensures_andThen ?_ fun _ => clean_runToCompletion (clean_finish held)
  refine ensures_change _ fun turn clean apart => ?_
  have known := clean apart
  exact ⟨known.rows,known.units,known.writes,known.scanned,known.removed⟩

theorem clean_runTurn : Ensures false Clean runTurn (fun _ => Clean) Clean Clean := by
  refine ensures_afterwards (ensures_handle ?_ (clean_onRaised _) (clean_onCancelled _)) clean_seal
  refine ensures_andThen (clean_runToCompletion clean_start) fun started => ?_
  cases started with
  | true => exact ensures_andThen (clean_frames false) clean_finishHolding
  | false => exact ensures_ret fun _ => id

theorem clean_runRemoteTurn : Ensures false Clean runRemoteTurn (fun _ => Clean) Clean Clean := by
  refine ensures_afterwards (ensures_handle ?_ (clean_onRaised _) (clean_onCancelled _)) clean_seal
  refine ensures_andThen (ensures_stageFiles clean_outside) fun _ => ?_
  refine ensures_andThen (clean_runToCompletion clean_start) fun _ => ?_
  exact ensures_andThen (clean_replies _) clean_finishHolding

theorem clean_appendSources (found : Bool) :
    Ensures shielded CleanWrite (appendSources found) (fun _ => CleanWrite) X Clean := by
  cases found with
  | true => exact clean_append _
  | false => exact ensures_ret fun _ => id

theorem clean_answerDirect : Ensures true Clean answerDirect (fun _ => Clean) Clean Clean := by
  refine ensures_andThen (ensures_figureSources clean_outside) fun sources => ?_
  refine ensures_andThen (clean_unit false .answer fun _ _ => ⟨rfl,rfl⟩) fun committed => ?_
  refine ensures_andThen (ensures_look _) fun discarded => ?_
  cases committed with
  | none => exact ensures_ret fun _ known => known.1
  | some messageId =>
    cases discarded with
    | true => exact ensures_ret fun _ known => known.1
    | false =>
      refine ensures_before (fun _ known => ⟨known.1,fun _ => known.2⟩) (clean_writing ?_)
      refine ensures_andThen (clean_append _) fun _ => ensures_andThen (clean_append _) fun _ =>
        ensures_andThen (clean_append _) fun _ => ?_
      exact ensures_andThen (clean_appendSources sources) fun _ => clean_report _ _

theorem clean_produceDirect : Ensures false Clean produceDirect (fun _ => Clean) Clean Clean := by
  refine ensures_afterwards (ensures_handle (clean_runToCompletion clean_answerDirect) ?_ ?_) clean_seal
  · exact clean_writingUnchecked (clean_report _ _)
  · exact clean_unlessDiscarded (clean_writing (clean_close _))

theorem clean_task (producer : Producer) : Ensures false Clean producer.task (fun _ => Clean) Clean Clean := by
  cases producer with
  | inProcess => exact clean_runTurn
  | remote => exact clean_runRemoteTurn
  | direct => exact clean_produceDirect

end

/-- The turn after the rest of the delete, cancelled writes that land and a save in the background. -/
def settled (turn : Turn) (events : List Event) : Turn := reach (fun turn e => outside e turn) turn events

def LeavesNothing (turn : Turn) : Prop := turn.rows = [] ∧ turn.stream = []

instance (turn : Turn) : Decidable (LeavesNothing turn) := inferInstanceAs (Decidable (_ ∧ _))

theorem clean_settled {producer : Producer} {redis : Bool} {script : List (Signal Answer Event)} {turn : Turn}
    (ran : producer.run redis script = some turn) (events : List Event) : Clean (settled turn events) := by
  have ended : Clean turn := run_ensures (clean_task producer) (fun _ => apart_idle rfl) ran
  exact always_reach (fun turn e => clean_outside e turn) ended events

/-- A turn deleted between two frames of its source; the cancellation ends the wait for a third. -/
def deletedRun : List (Signal Answer Event) :=
  [.answer .begins,.answer (.commits none),.answer (.frame false),.answer .written,.event .delete,.event .delete,
    .answer (.frame false),.cancel]

def lateQuestionRun : List (Signal Answer Event) :=
  [.event .delete,.answer .begins,.event .delete,.cancel,.answer (.commits none)]

/-- The delete falls between the look of the answer's unit at the flag and its commit. -/
def lateAnswerRun : List (Signal Answer Event) :=
  [.answer .begins,.answer (.commits none),.answer .exhausted,.answer .begins,.event .delete,.event .delete,.cancel,
    .answer (.commits (some 7))]

def lateFrameRun : List (Signal Answer Event) :=
  [.answer .begins,.answer (.commits none),.answer (.frame false),.event .delete,.event .delete,.cancel]

/-- The flag is set between the frame that reports the answer and the terminal record. -/
def lateEndRun : List (Signal Answer Event) :=
  [.answer .begins,.answer (.commits none),.answer (.frame true),.answer .exhausted,.answer .begins,
    .answer (.commits (some 7)),.answer .written,.event .delete,.event .delete,.cancel,.event .delete,.event .delete,
    .answer .written]

/-- A reply reaches the remote producer after the buffers were removed, before the cancellation does. -/
def lateReplyRun : List (Signal Answer Event) :=
  [.answer .staged,.answer .begins,.answer (.commits none),.event .delete,.event .delete,.event .delete,.event .delete,
    .answer (.frame false),.cancel]

/-- The ticker finds the buffer open after its key was removed, before the cancellation stops it. -/
def lateTickRun : List (Signal Answer Event) :=
  [.answer .begins,.answer (.commits none),.event .delete,.event .delete,.event .delete,.event .delete,.event .beside,
    .event (.land 0),.cancel]

def traces (producer : Producer) (script : List (Signal Answer Event)) (events : List Event) :
    Option (Stage × List Row × List Record) :=
  (producer.run true script).map fun turn =>
    ((settled turn events).stage,(settled turn events).rows,(settled turn events).stream)

end Cowork.DeletedTurns
