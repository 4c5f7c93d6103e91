import Mathlib.Data.List.Basic

/-!
`handlers/responses.py`: what each exit of the two producers other than completion saves
with the turn, and `cancelled_ask_user_retirements`, which closes the questions left
open.
-/

namespace Cowork.QuestionRetirement
open List

/-- A collected event; the producers read of a question and its answer only the type and the id, which may be
    missing. -/
inductive Event
  | askUser (questionId : Option String)
  | askUserAnswered (questionId : Option String) (status : String) (values : List String) (text : String)
  | failed (message code : String)
  | other (type : String)
  deriving DecidableEq

def Event.retires : Event → Option (Option String)
  | .askUserAnswered id _ _ _ => some id
  | _ => none

/-- The loop over the events with the set `retired`, which grows by each question it retires. -/
def synthesized : List (Option String) → List Event → List Event
  | _,[] => []
  | retired,.askUser id :: rest =>
    if id ∈ retired then synthesized retired rest
    else .askUserAnswered id "cancelled" [] "" :: synthesized (id :: retired) rest
  | retired,_ :: rest => synthesized retired rest

def cancelledAskUserRetirements (events : List Event) : List Event :=
  synthesized (events.filterMap Event.retires) events

inductive Producer
  | inProcess
  | remote

structure Lifecycle where
  discarded : Bool
  closed : Bool
  shuttingDown : Bool
  timedOut : Bool
  stalled : Bool

/-- How a turn ends without completing: only a remote one has a failure reported to it. An exception comes with the
    message and code it is classified as. `finished` says whether `finish` had run up to its save, and whether that
    save succeeded. -/
inductive Ending : Producer → Type
  | reported (message code : String) : Ending .remote
  | cancelled {producer : Producer} (finished : Option Bool) (lifecycle : Lifecycle) : Ending producer
  | raised {producer : Producer} (finished : Option Bool) (message code : String) : Ending producer

def Lifecycle.failure (l : Lifecycle) : List Event :=
  if l.shuttingDown then [.failed ("The server stopped before this answer finished. The answer ends where it " ++
    "was cut off. Please send your question again.") "turn_lost"]
  else if l.timedOut then
    [.failed "The response was interrupted before it finished. Please try again." "anton_error"]
  else if l.stalled then [.failed "The response stalled and was ended. Please try sending again." "stalled"]
  else []

/-- `persist`, which saves a turn once: where `finish` came to it, a later call saves nothing. -/
def persist (finished : Option Bool) (events ending : List Event) : Option (List Event) :=
  match finished with
  | none => some (events ++ ending)
  | some true => some events
  | some false => none

/-- The events saved with the turn, if it is saved: a discarded turn is dropped, and with a closed buffer the
    completed answer is saved already. -/
def savedEvents {producer : Producer} (ending : Ending producer) (events : List Event) : Option (List Event) :=
  match producer,ending with
  | _,.reported message code => persist none events (cancelledAskUserRetirements events ++ [.failed message code])
  | _,.cancelled finished l =>
    if l.discarded || l.closed then none else persist finished events (cancelledAskUserRetirements events ++ l.failure)
  | .remote,.raised finished message code =>
    persist finished events (cancelledAskUserRetirements events ++ [.failed message code])
  -- The in-process `except Exception` appends the failure only.
  | .inProcess,.raised finished message code => persist finished events [.failed message code]

/-- How often the events retire the question. -/
def retirements (id : Option String) (events : List Event) : Nat := (events.filterMap Event.retires).count id

/-- The ending retires no question in what is saved: `finish` had saved the turn, or an exception ends the in-process
    producer. -/
def Ending.Plain {producer : Producer} : Ending producer → Prop
  | .reported _ _ => False
  | .cancelled finished _ => finished = some true
  | .raised finished _ _ => finished = some true ∨ producer = .inProcess

/-- Such an ending while a published question has no answer. -/
def LeavesOpen {producer : Producer} (ending : Ending producer) (events : List Event) : Prop :=
  ending.Plain ∧ ∃ id, .askUser id ∈ events ∧ retirements id events = 0

@[simp] theorem retirements_append (id : Option String) (first second : List Event) :
    retirements id (first ++ second) = retirements id first + retirements id second := by simp [retirements]

@[simp] theorem retirements_failed (id : Option String) (message code : String) :
    retirements id [.failed message code] = 0 := rfl

theorem synthesized_count (id : Option String) (events : List Event) (retired : List (Option String)) :
    retirements id (synthesized retired events) = if .askUser id ∈ events ∧ id ∉ retired then 1 else 0 := by
  induction events generalizing retired with
  | nil => simp [synthesized,retirements]
  | cons event rest ih =>
    cases event with
    | askUser other =>
      by_cases known : other ∈ retired
      · rw [synthesized,if_pos known,ih]
        by_cases same : id = other
        · simp [same,known]
        · simp [same]
      · rw [synthesized,if_neg known]
        by_cases same : id = other
        · subst same
          have after := ih (id :: retired)
          simp only [retirements] at after
          simp [retirements,Event.retires,after,known]
        · have after := ih (other :: retired)
          simp only [retirements] at after
          simp [retirements,Event.retires,after,same,Ne.symm same]
    | askUserAnswered | failed | other => simp [synthesized,ih]

theorem cancelledAskUserRetirements_count (id : Option String) (events : List Event) :
    retirements id (cancelledAskUserRetirements events) =
      if .askUser id ∈ events ∧ retirements id events = 0 then 1 else 0 := by
  rw [cancelledAskUserRetirements,synthesized_count]
  simp [retirements,count_eq_zero]

theorem failure_retirements (id : Option String) (l : Lifecycle) : retirements id l.failure = 0 := by
  unfold Lifecycle.failure
  split_ifs
  all_goals rfl

theorem persist_added {finished : Option Bool} {events ending saved : List Event}
    (saves : persist finished events ending = some saved) :
    finished ≠ some true ∧ saved = events ++ ending ∨ finished = some true ∧ saved = events := by
  rcases finished with _ | (_ | _) <;> cases saves
  · exact .inl ⟨nofun,rfl⟩
  · exact .inr ⟨rfl,rfl⟩

theorem saved_added {producer : Producer} {ending : Ending producer} {events saved : List Event}
    (saves : savedEvents ending events = some saved) :
    ∃ added, saved = events ++ added ∧
      (¬ending.Plain ∧ (∀ id, retirements id added = retirements id (cancelledAskUserRetirements events)) ∨
        ending.Plain ∧ ∀ id, retirements id added = 0) := by
  have nothing : events = events ++ [] := (append_nil events).symm
  cases ending with
  | reported message code => cases saves; exact ⟨_,rfl,.inl ⟨id,by simp⟩⟩
  | cancelled finished l =>
    simp only [savedEvents,Option.ite_none_left_eq_some] at saves
    rcases persist_added saves.2 with ⟨unsaved,rfl⟩ | ⟨done,rfl⟩
    · exact ⟨_,rfl,.inl ⟨unsaved,by simp [failure_retirements]⟩⟩
    · exact ⟨[],nothing,.inr ⟨done,fun _ => rfl⟩⟩
  | raised finished message code =>
    cases producer with
    | inProcess =>
      rcases persist_added saves with ⟨_,rfl⟩ | ⟨_,rfl⟩
      · exact ⟨_,rfl,.inr ⟨.inr rfl,by simp⟩⟩
      · exact ⟨[],nothing,.inr ⟨.inr rfl,fun _ => rfl⟩⟩
    | remote =>
      rcases persist_added saves with ⟨unsaved,rfl⟩ | ⟨done,rfl⟩
      · exact ⟨_,rfl,.inl ⟨by simpa [Ending.Plain] using unsaved,by simp⟩⟩
      · exact ⟨[],nothing,.inr ⟨.inl done,fun _ => rfl⟩⟩

/-- The saved events retire every published question, except where the ending saves no retirement and one is open; what
    an ending adds retires no question twice and none that was retired. -/
theorem saved_retires_iff {producer : Producer} {ending : Ending producer} {events saved : List Event}
    (saves : savedEvents ending events = some saved) :
    ((∀ id, .askUser id ∈ events → 1 ≤ retirements id saved) ↔ ¬LeavesOpen ending events) ∧
      ∃ added, saved = events ++ added ∧
        ∀ id, retirements id added ≤ 1 ∧ (1 ≤ retirements id events → retirements id added = 0) := by
  obtain ⟨added,rfl,adds⟩ := saved_added saves
  rcases adds with ⟨retiring,counts⟩ | ⟨plain,counts⟩
  · have once := cancelledAskUserRetirements_count
    refine ⟨⟨fun _ leaves => retiring leaves.1,?_⟩,added,rfl,?_⟩
    · intro _ id published
      by_cases answered : retirements id events = 0
      · simp [counts,once,published,answered]
      · simp only [retirements_append]
        omega
    · intro id
      rw [counts,once]
      constructor
      · split <;> omega
      · intro answered; exact if_neg fun both => by omega
  · refine ⟨⟨?_,?_⟩,added,rfl,fun id => by simp [counts]⟩
    · rintro retires ⟨_,id,published,unanswered⟩
      have := retires id published
      simp [counts,unanswered] at this
    · intro closed id published
      by_contra missing
      simp only [retirements_append] at missing
      exact closed ⟨plain,id,published,by omega⟩

def sampleStop : Ending .inProcess := .cancelled none ⟨false,false,false,false,false⟩

theorem stopped_question_retired :
    ∃ saved, savedEvents sampleStop [.askUser (some "q")] = some saved ∧
      ((∀ id, .askUser id ∈ [Event.askUser (some "q")] → 1 ≤ retirements id saved) ↔
        ¬LeavesOpen sampleStop [.askUser (some "q")]) :=
  ⟨_,rfl,(saved_retires_iff rfl).1⟩

/-- A provider error while a question is on screen saves the question and nothing that retires it; an append that
    raises after `finish` has saved the turn adds nothing to what was saved. -/
theorem raised_question_open :
    (savedEvents (.raised none "An unexpected error occurred." "anton_error" : Ending .inProcess)
        [.askUser (some "q")] =
          some [.askUser (some "q"),.failed "An unexpected error occurred." "anton_error"] ∧
      retirements (some "q")
        [.askUser (some "q"),.failed "An unexpected error occurred." "anton_error"] = 0) ∧
    savedEvents (.raised (some true) "An unexpected error occurred." "anton_error" : Ending .remote)
      [.askUser (some "q")] = some [.askUser (some "q")] ∧ retirements (some "q") [.askUser (some "q")] = 0 := by
  decide

end Cowork.QuestionRetirement
