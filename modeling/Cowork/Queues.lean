import Mathlib.Data.List.Perm.Basic
import Mathlib.Data.List.Nodup
import Mathlib.Order.Lattice

/-!
Queues from which elements are taken out of turn and put back at the place they had. A
queue without duplicates is a rearrangement of what was withdrawn and what is left, and
a sorted one stays sorted if the element goes back behind those before it
(`sorted_putBack`). Calls that hold elements are counted by what each holds.
-/
namespace Cowork.Queues

section places
variable {α : Type} [DecidableEq α]

def withdraw (queue : List α) (item : α) : List α := queue.filter (· ≠ item)

/-- A queue with an element at a place, or at its end if it is shorter; an element that it has is not put in again. -/
def putBack (queue : List α) (item : α) (place : Nat) : List α :=
  if item ∈ queue then queue else queue.insertIdx (min place queue.length) item

theorem withdraw_sublist (queue : List α) (item : α) : (withdraw queue item).Sublist queue := List.filter_sublist

variable {queue : List α} {item : α}

theorem mem_withdraw {other : α} : other ∈ withdraw queue item ↔ other ∈ queue ∧ other ≠ item := by simp [withdraw]

theorem perm_withdraw (nodup : queue.Nodup) (member : item ∈ queue) : queue.Perm (item :: withdraw queue item) := by
  have same : withdraw queue item = queue.erase item := by
    rw [nodup.erase_eq_filter]
    exact List.filter_congr fun other _ => by simp [bne,beq_eq_decide]
  rw [same]
  exact List.perm_cons_erase member

theorem perm_putBack (absent : item ∉ queue) (place : Nat) : (putBack queue item place).Perm (item :: queue) := by
  rw [putBack,if_neg absent]
  exact List.perm_insertIdx _ _ (Nat.min_le_right _ _)

end places

section order
variable {α : Type} [LinearOrder α]

theorem sorted_putBack {queue : List α} {item : α} {place : Nat} (sorted : queue.Pairwise (· < ·))
    (absent : item ∉ queue) (before : (queue.filter (· < item)).length = place) :
    (putBack queue item place).Pairwise (· < ·) := by
  have short : place ≤ queue.length := before ▸ List.length_filter_le _ _
  rw [putBack]
  induction queue generalizing place with
  | nil =>
    subst before
    exact List.pairwise_singleton _ _
  | cons first rest ih =>
    obtain ⟨least,later⟩ := List.pairwise_cons.mp sorted
    by_cases less : first < item
    · rw [List.filter_cons_of_pos (by simpa using less)] at before
      grind [List.pairwise_cons,List.insertIdx_subset_cons]
    · -- The first element comes after the one put back, and so do all others.
      grind [List.filter_eq_nil_iff]

end order

section calls
variable {α κ : Type} [DecidableEq α] (holds : κ → List α)

theorem held_cut {calls : List κ} {k : Nat} {call : κ} (found : calls[k]? = some call) (item : α) :
    (calls.flatMap holds).count item = (holds call).count item + ((calls.eraseIdx k).flatMap holds).count item := by
  grind [List.getElem?_eq_some_iff,List.getElem_cons_eraseIdx_perm]

theorem held_set {calls : List κ} {k : Nat} {call : κ} (found : calls[k]? = some call) (next : κ) (item : α) :
    ((calls.set k next).flatMap holds).count item + (holds call).count item =
      (calls.flatMap holds).count item + (holds next).count item := by grind [List.set_perm_cons_eraseIdx,held_cut]

end calls

end Cowork.Queues
