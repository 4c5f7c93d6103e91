import Mathlib.Data.List.Nodup

/-!
A list that only grows and is cut at its end, read at one moment and used later.
Elements are known by a key, and no key comes back once it was there. Then what stood up
to an element at the reading is what stands up to it now, if it still stands there
(`through_follows`, `through_grows`).
-/
namespace Cowork.Snapshots
open List

variable {α κ : Type} (key : α → κ)

def Grows (seen : List κ) (now next : List α) : Prop :=
  ∃ count more, next = now.take count ++ more ∧ ∀ x ∈ more, key x ∉ seen

def Follows (read now : List α) : Prop :=
  ∃ count more, now = read.take count ++ more ∧ ∀ x ∈ more, ∀ y ∈ read, key x ≠ key y

variable {key}

theorem grows_refl (seen : List κ) (now : List α) : Grows key seen now now :=
  ⟨now.length,[],by simp,nofun⟩

variable {seen : List κ} {now next list part : List α} {k : κ}

theorem grows_append (now : List α) {more : List α} (new : ∀ x ∈ more, key x ∉ seen) : Grows key seen now (now ++ more) :=
  ⟨now.length,more,by rw [take_length],new⟩

theorem grows_cut (seen : List κ) (cut : next <+: now) : Grows key seen now next :=
  ⟨next.length,[],by rw [append_nil]; exact prefix_iff_eq_take.mp cut,nofun⟩

theorem follows_refl (read : List α) : Follows key read read :=
  ⟨read.length,[],by simp,nofun⟩

theorem follows_grows {read : List α} (follows : Follows key read now) (known : ∀ y ∈ read, key y ∈ seen)
    (grows : Grows key seen now next) : Follows key read next := by
  grind only [take_append,take_take,append_assoc,mem_append,mem_of_mem_take,Follows,Grows]

variable [DecidableEq κ]

def through (key : α → κ) (k : κ) (list : List α) : Option (List α) :=
  (list.findIdx? fun x => key x = k).map fun place => list.take (place + 1)

theorem through_some (found : through key k list = some part) : ∃ front x rest, list = front ++ x :: rest ∧
    part = front ++ [x] ∧ key x = k ∧ ∀ y ∈ front, key y ≠ k := by
  obtain ⟨place,located,rfl⟩ := Option.map_eq_some_iff.mp found
  obtain ⟨bound,same,first⟩ := findIdx?_eq_some_iff_getElem.mp located
  refine ⟨list.take place,list[place],list.drop (place + 1),?_,?_,by simpa using same,?_⟩
  · rw [← drop_eq_getElem_cons bound,take_append_drop]
  all_goals grind [take_succ_eq_append_getElem,mem_take_iff_getElem]

theorem through_take (found : through key k list = some part) : list.take part.length = part := by
  obtain ⟨front,x,rest,rfl,rfl,_⟩ := through_some found
  rw [append_cons front x rest,take_left]

theorem through_split {front rest : List α} {x : α} (here : key x = k) (early : ∀ y ∈ front, key y ≠ k) :
    through key k (front ++ x :: rest) = some (front ++ [x]) := by grind [through]

theorem through_none (missing : ∀ x ∈ list, key x ≠ k) : through key k list = none := by
  rw [through,findIdx?_eq_none_iff.mpr (by simpa using missing)]
  rfl

theorem through_grows (grows : Grows key seen now next) (known : k ∈ seen) (found : through key k next = some part) :
    through key k now = some part := by
  obtain ⟨count,more,rfl,new⟩ := grows
  obtain ⟨front,x,rest,split,rfl,here,early⟩ := through_some found
  have inside : ∃ later, now.take count = front ++ x :: later := by
    rcases append_eq_append_iff.mp split with ⟨middle,_,tail⟩ | ⟨middle,whole,tail⟩
    · have member : x ∈ more := by rw [tail]; simp
      exact absurd (here ▸ known) (new x member)
    cases middle <;> grind
  obtain ⟨later,kept⟩ := inside
  rw [← take_append_drop count now,kept,append_assoc]
  exact through_split here early

theorem through_follows {read : List α} (follows : Follows key read now) (unique : (read.map key).Nodup) {place : Nat}
    {x : α} (there : read[place]? = some x) (found : through key (key x) now = some part) : part = read.take (place + 1) := by
  obtain ⟨count,more,rfl,new⟩ := follows
  have was : through key (key x) read = some part := by
    have grows : Grows key (read.map key) read (read.take count ++ more) := by grind only [mem_map,Grows]
    exact through_grows grows (mem_map_of_mem (mem_of_getElem? there)) found
  obtain ⟨front,y,rest,split,rfl,same,_⟩ := through_some was
  have length : place = front.length := by grind
  rw [length,split,take_append,take_of_length_le (Nat.le_succ _)]
  simp

end Cowork.Snapshots
