import Cowork.Transitions
import Mathlib.Logic.Function.Basic

/-!
`CodeProjectStore` (`project_store.py`), one step for each file operation that a reader
or a recovery can see. `update_many` puts a journal of the documents from before in
place and replaces them one by one; `_recover_transaction` undoes what is left of it,
also over later saves (`left_journal_undoes`).
-/

namespace Cowork.ProjectCatalogue

open Transitions Function List

variable {Id Doc : Type} [DecidableEq Id]

/-- In `_save_many` with stages to be replaced, or in `_recover_transaction`, at the start or for an error, with
    entries to be restored. -/
inductive Phase (Id Doc : Type)
  | idle
  | writing (updates todo : List (Id × Doc))
  | restoring (todo : List (Id × Doc)) (boot : Bool)
  | dead

/-- `done` has the changes of each call that has made all of them: it returned, or was cut off just before. -/
structure World (Id Doc : Type) where
  docs : Id → Option Doc
  journal : Option (List (Id × Doc))
  phase : Phase Id Doc
  done : List (List (Id × Option Doc))

/-- A single save or delete is one `os.replace` or `unlink`; a failure before it is no action. `fail` is an error in
    an operation of `_save_many` or of the recovery. -/
inductive Action (Id Doc : Type)
  | change (id : Id) (doc : Option Doc) (returns : Bool)
  | putJournal (updates : List (Id × Doc))
  | replace
  | unlinkJournal (returns : Bool)
  | fail
  | die
  | restart

def after (returns : Bool) : Phase Id Doc := if returns then .idle else .dead

def whole (updates : List (Id × Doc)) : List (Id × Option Doc) := updates.map fun u => (u.1,some u.2)

def recover (w : World Id Doc) (boot : Bool) : World Id Doc :=
  match w.journal with
  | none => { w with phase := .idle }
  | some entries => { w with phase := .restoring entries boot }

def step (w : World Id Doc) (action : Action Id Doc) : World Id Doc :=
  match action,w.phase with
  | .change id doc returns,.idle =>
    { w with docs := update w.docs id doc, phase := after returns, done := w.done ++ [[(id,doc)]] }
  | .putJournal updates,.idle =>
    -- Every project is read first, and the ids are the keys of a dict.
    if updates ≠ [] ∧ (updates.map Prod.fst).Nodup ∧ ∀ u ∈ updates, (w.docs u.1).isSome then
      { w with
        journal := some (updates.filterMap fun u => (w.docs u.1).map fun doc => (u.1,doc))
        phase := .writing updates updates }
    else w
  | .replace,.writing updates (u :: todo) =>
    { w with docs := update w.docs u.1 (some u.2), phase := .writing updates todo }
  | .replace,.restoring (u :: todo) boot =>
    { w with docs := update w.docs u.1 (some u.2), phase := .restoring todo boot }
  | .unlinkJournal returns,.writing updates [] =>
    { w with journal := none, phase := after returns, done := w.done ++ [whole updates] }
  | .unlinkJournal _,.restoring [] _ => { w with journal := none, phase := .idle }
  | .fail,.idle | .fail,.writing _ _ => recover w false
  | .fail,.restoring _ boot => { w with phase := after (!boot) }
  | .die,_ => { w with phase := .dead }
  | .restart,.dead => recover w true
  | _,_ => w

def written (docs : Id → Option Doc) (changes : List (Id × Option Doc)) : Id → Option Doc :=
  changes.foldl (fun docs c => update docs c.1 c.2) docs

/-- What the calls in effect make of the catalogue. -/
def World.shown (start : Id → Option Doc) (w : World Id Doc) : Id → Option Doc := written start w.done.flatten

/-- A journal left by an earlier call names no project that is changed, and no other is put in its place. -/
def Clean (w : World Id Doc) : Action Id Doc → Prop
  | .change id _ _ => ∀ entries ∈ w.journal, id ∉ entries.map Prod.fst
  | .putJournal _ => w.journal = none
  | _ => True

/-- Of the changes of a call or recovery under way, those still to be made; each is of a project in the journal. -/
def Pending (w : World Id Doc) (todo : List (Id × Doc)) (goal : Id → Option Doc) : Prop :=
  ∃ entries, w.journal = some entries ∧ (∀ u ∈ todo, u.1 ∈ entries.map Prod.fst) ∧ written w.docs (whole todo) = goal

/-- A journal always leads back to what the calls in effect have made. -/
structure Inv (start : Id → Option Doc) (w : World Id Doc) : Prop where
  clean : w.journal = none → w.docs = w.shown start ∧ (w.phase = .idle ∨ w.phase = .dead)
  kept : ∀ entries, w.journal = some entries → written w.docs (whole entries) = w.shown start
  writing : ∀ updates todo, w.phase = .writing updates todo → Pending w todo (written (w.shown start) (whole updates))
  restoring : ∀ todo boot, w.phase = .restoring todo boot → Pending w todo (w.shown start)

variable {start : Id → Option Doc} {w : World Id Doc}

theorem written_append (docs : Id → Option Doc) (first second : List (Id × Option Doc)) :
    written docs (first ++ second) = written (written docs first) second := foldl_append

theorem written_cons (docs : Id → Option Doc) (u : Id × Doc) (rest : List (Id × Doc)) :
    written docs (whole (u :: rest)) = written (update docs u.1 (some u.2)) (whole rest) := rfl

theorem written_absorbs {id : Id} {entries : List (Id × Doc)} (member : id ∈ entries.map Prod.fst)
    (docs : Id → Option Doc) (doc : Option Doc) :
    written (update docs id doc) (whole entries) = written docs (whole entries) := by
  induction entries generalizing docs with
  | nil => cases member
  | cons entry rest ih =>
    rw [written_cons,written_cons]
    by_cases same : id = entry.1
    · rw [same,update_idem]
    · rw [update_comm same]; exact ih ((mem_cons.mp member).resolve_left same) _

theorem written_elsewhere {id : Id} {entries : List (Id × Doc)} (other : id ∉ entries.map Prod.fst)
    (docs : Id → Option Doc) (doc : Option Doc) :
    written (update docs id doc) (whole entries) = update (written docs (whole entries)) id doc := by
  induction entries generalizing docs with
  | nil => rfl
  | cons entry rest ih =>
    obtain ⟨differs,apart⟩ := not_or.mp (mem_cons.not.mp other)
    rw [written_cons,written_cons,update_comm differs]
    exact ih apart _

theorem written_current (docs : Id → Option Doc) {entries : List (Id × Doc)}
    (current : ∀ e ∈ entries, docs e.1 = some e.2) : written docs (whole entries) = docs := by
  induction entries with
  | nil => rfl
  | cons entry rest ih =>
    rw [written_cons,← current entry mem_cons_self,update_eq_self]
    exact ih fun e member => current e (mem_cons_of_mem _ member)

theorem shown_done {docs : Id → Option Doc} {changes : List (Id × Option Doc)}
    (same : docs = written (w.shown start) changes) : docs = written start (w.done ++ [changes]).flatten := by
  rw [same,flatten_append,written_append]
  simp [World.shown]

omit [DecidableEq Id] in
theorem after_rest (returns : Bool) : (after returns : Phase Id Doc) = .idle ∨ (after returns : Phase Id Doc) = .dead := by
  cases returns <;> simp [after]

theorem inv_rest {docs : Id → Option Doc} {phase : Phase Id Doc} {done : List (List (Id × Option Doc))}
    (rest : phase = .idle ∨ phase = .dead) (same : docs = written start done.flatten) :
    Inv start ⟨docs,none,phase,done⟩ := by
  refine ⟨fun _ => ⟨same,rest⟩,nofun,?_,?_⟩
  all_goals
    rintro a b rfl
    simp at rest

theorem inv_stop (inv : Inv start w) {phase : Phase Id Doc} (rest : phase = .idle ∨ phase = .dead) :
    Inv start { w with phase } := by
  refine ⟨fun none => ⟨(inv.clean none).1,rest⟩,inv.kept,?_,?_⟩
  all_goals
    rintro a b rfl
    simp at rest

theorem inv_recover (inv : Inv start w) (boot : Bool) : Inv start (recover w boot) := by
  unfold recover
  split
  · exact inv_stop inv (.inl rfl)
  · rename_i entries there
    refine ⟨fun none => ?_,inv.kept,nofun,?_⟩
    · rw [there] at none; cases none
    · rintro todo boot' ⟨⟩; exact ⟨entries,there,fun u member => mem_map_of_mem member,inv.kept entries there⟩

theorem inv_next {u : Id × Doc} {todo : List (Id × Doc)} {goal : Id → Option Doc} {phase : Phase Id Doc}
    (inv : Inv start w) (pending : Pending w (u :: todo) goal)
    (is : (∃ updates, phase = .writing updates todo ∧ goal = written (w.shown start) (whole updates)) ∨
      ∃ boot, phase = .restoring todo boot ∧ goal = w.shown start) :
    Inv start { w with docs := update w.docs u.1 (some u.2), phase } := by
  obtain ⟨entries,there,own,leads⟩ := pending
  have next : Pending { w with docs := update w.docs u.1 (some u.2), phase } todo goal :=
    ⟨entries,there,fun v member => own v (mem_cons_of_mem _ member),leads⟩
  refine ⟨fun none => ?_,fun entries' journal => ?_,?_,?_⟩
  · rw [there] at none; cases none
  · obtain rfl := Option.some.inj (there.symm.trans journal)
    exact (written_absorbs (own u mem_cons_self) _ _).trans (inv.kept entries there)
  · rintro updates rest rfl
    obtain ⟨updates',⟨⟩,rfl⟩ | ⟨_,⟨⟩,_⟩ := is
    exact next
  · rintro rest boot rfl
    obtain ⟨_,⟨⟩,_⟩ | ⟨boot',⟨⟩,rfl⟩ := is
    exact next

theorem inv_putJournal {updates : List (Id × Doc)} (inv : Inv start w) (none : w.journal = none) :
    Inv start (step w (.putJournal updates)) := by
  obtain ⟨docs,journal,phase,done⟩ := w
  obtain ⟨same,rfl | rfl⟩ := inv.clean none
  · simp only [step]
    split
    · rename_i ready
      refine ⟨nofun,?_,?_,nofun⟩
      · rintro entries ⟨⟩
        refine (written_current docs fun e member => ?_).trans same
        obtain ⟨u,_,is⟩ := mem_filterMap.mp member
        obtain ⟨doc,found,rfl⟩ := Option.map_eq_some_iff.mp is
        exact found
      · rintro updates' todo ⟨⟩
        refine ⟨_,rfl,fun u member => ?_,congrArg (written · _) same⟩
        obtain ⟨doc,is⟩ := Option.isSome_iff_exists.mp (ready.2.2 u member)
        exact mem_map.mpr ⟨(u.1,doc),mem_filterMap.mpr ⟨u,member,congrArg _ is⟩,rfl⟩
    · exact inv
  · exact inv

theorem inv_change {docs : Id → Option Doc} {journal : Option (List (Id × Doc))} {done : List (List (Id × Option Doc))}
    {id : Id} {doc : Option Doc} {returns : Bool} (inv : Inv start ⟨docs,journal,.idle,done⟩)
    (apart : ∀ entries ∈ journal, id ∉ entries.map Prod.fst) :
    Inv start ⟨update docs id doc,journal,after returns,done ++ [[(id,doc)]]⟩ := by
  have grown {shown : Id → Option Doc} (same : shown = World.shown start ⟨docs,journal,.idle,done⟩) :
      update shown id doc = written start (done ++ [[(id,doc)]]).flatten :=
    @shown_done _ _ _ start ⟨docs,journal,.idle,done⟩ _ [(id,doc)] (congrArg (update · id doc) same)
  cases journal with
  | none => exact inv_rest (after_rest returns) (grown (inv.clean rfl).1)
  | some entries =>
    have same := (written_elsewhere (apart entries rfl) docs doc).trans (grown (inv.kept entries rfl))
    have idle : Inv start ⟨update docs id doc,some entries,.idle,done ++ [[(id,doc)]]⟩ :=
      ⟨nofun,fun _ is => Option.some.inj is ▸ same,nofun,nofun⟩
    exact inv_stop idle (after_rest returns)

theorem inv_step {action : Action Id Doc} (inv : Inv start w) (clean : Clean w action) : Inv start (step w action) := by
  obtain ⟨docs,journal,phase,done⟩ := w
  cases action with
  | putJournal updates => exact inv_putJournal inv clean
  | die => cases phase <;> exact inv_stop inv (.inr rfl)
  | change id doc returns =>
    cases phase with
    | idle => exact inv_change inv clean
    | _ => exact inv
  | replace =>
    cases phase with
    | writing updates todo =>
      cases todo with
      | nil => exact inv
      | cons u todo => exact inv_next inv (inv.writing _ _ rfl) (.inl ⟨updates,rfl,rfl⟩)
    | restoring todo boot =>
      cases todo with
      | nil => exact inv
      | cons u todo => exact inv_next inv (inv.restoring _ _ rfl) (.inr ⟨boot,rfl,rfl⟩)
    | _ => exact inv
  | unlinkJournal returns =>
    cases phase with
    | writing updates todo =>
      cases todo with
      | nil =>
        obtain ⟨_,_,_,same⟩ := inv.writing _ _ rfl
        exact inv_rest (after_rest returns) (shown_done same)
      | cons u todo => exact inv
    | restoring todo boot =>
      cases todo with
      | nil =>
        obtain ⟨_,_,_,same⟩ := inv.restoring _ _ rfl
        exact inv_rest (.inl rfl) same
      | cons u todo => exact inv
    | _ => exact inv
  | fail =>
    cases phase with
    | writing | idle => exact inv_recover inv false
    | restoring todo boot => exact inv_stop inv (after_rest _)
    | dead => exact inv
  | restart =>
    cases phase with
    | dead => exact inv_recover inv true
    | _ => exact inv

/-- In every run in which no call changes a project of a journal that is left, or puts another in its place: once a
    restart, or any recovery, has completed, the catalogue is what the calls in effect make of it, each with all of
    its changes. -/
theorem catalogue_shows_calls (start : Id → Option Doc) (actions : List (Action Id Doc))
    (clean : Permitted step Clean ⟨start,none,.idle,[]⟩ actions) :
    (reach step ⟨start,none,.idle,[]⟩ actions).journal = none →
      (reach step ⟨start,none,.idle,[]⟩ actions).docs = (reach step ⟨start,none,.idle,[]⟩ actions).shown start := by
  intro gone
  have first : Inv start ⟨start,none,.idle,[]⟩ := inv_rest (.inl rfl) rfl
  exact ((invariant_reach (fun _ _ => inv_step) first clean).clean gone).1

def sample : Nat → Option String := fun id => if id < 2 then some "old" else none

def cutOff : List (Action Nat String) :=
  [.putJournal [(0,"new"),(1,"new")],.replace,.die,.restart,.replace,.replace,.unlinkJournal true]

theorem cut_off_update_is_undone : (reach step ⟨sample,none,.idle,[]⟩ cutOff).docs =
    (reach step ⟨sample,none,.idle,[]⟩ cutOff).shown sample :=
  catalogue_shows_calls sample cutOff (by simp [Permitted,Clean,cutOff]) rfl

/-- The first save returns, the second is cut off after its `os.replace`. -/
def twoSaves : List (Action Nat String) :=
  [.change 0 (some "saved") true,.change 0 (some "late") false,.restart]

/-- The recovery of an `update_many` that failed cannot remove the journal; a save that returns is undone by the next
    start. And a save that is cut off changes what an earlier one that returned has written. -/
theorem left_journal_undoes :
    (∃ actions : List (Action Nat String), let last := reach step ⟨sample,none,.idle,[]⟩ actions
      last.journal = none ∧ last.docs 0 = some "old" ∧ last.done = [[(0,some "saved")]]) ∧
    (reach step ⟨sample,none,.idle,[]⟩ twoSaves).journal = none ∧
      (reach step ⟨sample,none,.idle,[]⟩ twoSaves).docs 0 = some "late" :=
  ⟨⟨[.putJournal [(0,"new")],.replace,.fail,.replace,.fail,.change 0 (some "saved") true,.die,.restart,.replace,
    .unlinkJournal true],rfl,rfl,rfl⟩,rfl,rfl⟩

end Cowork.ProjectCatalogue
