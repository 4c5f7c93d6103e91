import Cowork.ControlStore

/-!
What the operations of a store leave alone. A program is quiet on a collection when it
never touches it; loads and lists are quiet everywhere, a save is quiet on every other
collection, and so are sequences, loops and branches of quiet programs.
-/
namespace Cowork.StoreFrames
open ControlModels Effects ControlStore Tables

section
variable {α β : Type} {c : Collection}

def Same (c : Collection) (s t : Docs) : Prop := t c = s c

theorem same_refl (s : Docs) : Same c s s := rfl
theorem same_trans (a b d : Docs) (first : Same c a b) (rest : Same c b d) : Same c a d := rest.trans first

theorem Same.find {s t : Docs} (same : Same c s t) (id : String) : t.find c id = s.find c id := by
  unfold Table.find
  rw [same]

def Quiet (c : Collection) (p : Prog Docs Err α) : Prop := ∀ s, Keeps (Same c) p s

theorem quiet_ret (a : α) : Quiet c (ret a) := keeps_ret same_refl a
theorem quiet_raise (e : Err) : Quiet c (raise e : Prog Docs Err α) := keeps_raise same_refl e
theorem quiet_attempt (r : Except Err α) : Quiet c (attempt r) := keeps_attempt same_refl r

theorem quiet_andThen {p : Prog Docs Err α} {f : α → Prog Docs Err β} (first : Quiet c p)
    (rest : ∀ a, Quiet c (f a)) : Quiet c (andThen p f) := fun s =>
  keeps_andThen same_trans (first s) (fun a s' _ => rest a s')

theorem quiet_forEach {body : β → Prog Docs Err Unit} (each : ∀ item, Quiet c (body item)) (items : List β) :
    Quiet c (forEach body items) :=
  keeps_forEach same_refl same_trans (fun item _ => each item)

theorem quiet_collect {body : β → Prog Docs Err α} (each : ∀ item, Quiet c (body item)) (items : List β) :
    Quiet c (collect body items) :=
  keeps_collect same_refl same_trans (fun item _ => each item)

theorem quiet_orMissing {wanted missing : Prog Docs Err α} (first : Quiet c wanted) (rest : Quiet c missing) :
    Quiet c (orMissing wanted missing) := by
  intro s
  have same := first s
  unfold Keeps orMissing at *
  split
  · rename_i t raised
    rw [raised] at same
    exact same_trans _ _ _ same (rest t)
  · exact same

theorem get_state (backend : Backend) (d : Collection) (id : String) (s : Docs) : (get backend d id s).2 = s := by
  unfold ControlStore.get
  split
  · rfl
  · split
    · rfl
    · split <;> rfl

theorem quiet_get (backend : Backend) (d : Collection) (id : String) : Quiet c (get backend d id) := by
  intro s
  show (get backend d id s).2 c = s c
  rw [get_state]

theorem quiet_list (backend : Backend) (d : Collection) : Quiet c (list backend d) := by
  intro s
  unfold Keeps list
  split <;> rfl

theorem listFor_state (d : Collection) (parent : String) (s : Docs) : (listFor d parent s).2 = s := by
  unfold listFor
  simp only
  split <;> rfl

theorem quiet_listFor (d : Collection) (parent : String) : Quiet c (listFor d parent) := by
  intro s
  show (listFor d parent s).2 c = s c
  rw [listFor_state]

theorem quiet_construct (d : Collection) (document : Model d) : Quiet c (construct d document) := by
  unfold construct
  split
  · exact quiet_ret document
  · exact quiet_raise _

section
variable (backend : Backend)
include backend

theorem quiet_save (now : Time) {d : Collection} (document : Model d) (other : d ≠ c) :
    Quiet c (save backend now d document) := by
  intro s
  unfold Keeps save
  split
  · rfl
  · exact put_collection s _ _ other

theorem quiet_saveAuditEvent (event : SecurityAuditEvent) (other : .audit ≠ c) :
    Quiet c (saveAuditEvent backend event) := by
  intro s
  cases backend with
  | files =>
    unfold Keeps saveAuditEvent
    have still := get_state .files .audit event.id s
    rcases looked : get .files .audit event.id s with ⟨r,s'⟩
    rw [looked] at still
    subst still
    cases r with
    | ok stored => rfl
    | error e =>
      cases e with
      | keyError text => exact quiet_save .files 0 event other s'
      | _ => rfl
  | rows =>
    unfold Keeps saveAuditEvent
    simp only
    split
    · rfl
    · exact quiet_save .rows 0 event other s

theorem save_stores (now : Time) {d : Model c} (good : wellFormedId (docId c d) = true) (s : Docs) :
    save backend now c d s = (.ok (touch now c d),s.put c (docId c d) (touch now c d)) := by simp [save,good]

theorem quiet_updateRunWith (now : Time) (id : String)
    {operation : TaskRun → Prog Docs Err (TaskRun × α)} (quiet : ∀ run, Quiet c (operation run)) (other : .runs ≠ c) :
    Quiet c (updateRunWith backend now id operation) := by
  have writes : ∀ (run : TaskRun) (kept : α), Quiet c (andThen (write (fun s => s.put .runs id (touch now .runs run)))
      (fun _ => ret (touch now .runs run,kept))) := fun run kept s => put_collection s _ _ other
  have body : ∀ (p : Prog Docs Err (TaskRun × α)), Quiet c p → Quiet c (transaction backend p) := by
    intro p silent s
    cases backend with
    | files => exact silent s
    | rows => exact keeps_atomically same_refl (silent s)
  refine body _ (quiet_andThen (quiet_get backend .runs id) (fun run => quiet_andThen (quiet run) (fun made => ?_)))
  obtain ⟨after,kept⟩ := made
  simp only
  split
  · exact quiet_ret _
  · cases backend with
    | files => exact quiet_andThen (quiet_save .files now _ other) (fun _ => quiet_ret _)
    | rows => exact writes after kept

theorem quiet_updateRun (now : Time) (id : String) {operation : TaskRun → Prog Docs Err TaskRun}
    (quiet : ∀ run, Quiet c (operation run)) (other : .runs ≠ c) : Quiet c (updateRun backend now id operation) :=
  quiet_andThen (quiet_updateRunWith backend now id (fun run => quiet_andThen (quiet run) (fun _ => quiet_ret _)) other)
    (fun _ => quiet_ret _)

theorem quiet_updateGrantWith (id : String)
    (operation : ConnectorGrant → TaskRun → Except Err (ConnectorGrant × α)) (other : .grants ≠ c) :
    Quiet c (updateGrantWith backend id operation) := by
  refine quiet_andThen (quiet_get backend .grants id) (fun grant => quiet_andThen (quiet_get backend .runs _) (fun run =>
    quiet_andThen (quiet_attempt _) (fun made => ?_)))
  cases backend with
  | files => exact quiet_andThen (quiet_save .files 0 _ other) (fun _ => quiet_ret _)
  | rows => exact fun s => put_collection s _ _ other

end

theorem listFor_stored {parent : String} {s : Docs} {items : List (Model c)}
    (listed : (listFor c parent s).1 = .ok items) {d : Model c} :
    d ∈ items ↔ d ∈ s.all c ∧ parentId c d = some parent := by
  unfold listFor at listed
  simp only at listed
  split at listed
  · cases listed
    rw [mem_newestFirst,List.mem_filter,decide_eq_true_eq]
  · cases listed

theorem get_ok {backend : Backend} {id : String} {s t : Docs} {d : Model c}
    (ok : get backend c id s = (.ok d,t)) : t = s ∧ s.find c id = some d ∧ valid c d = true := by
  unfold ControlStore.get at ok
  split at ok
  · cases ok
  · split at ok
    · cases ok
    · rename_i stored found
      split at ok
      · rename_i checked
        cases ok; exact ⟨rfl,found,checked⟩
      · cases ok

end

end Cowork.StoreFrames
