import Mathlib.Data.List.AList

/-!
Tables of entries by key, one table for each kind of entry. A table is read by
looking keys up (`find`); the list of its entries (`all`) is what a scan comes
upon. The lemmas say what writing, dropping and filtering do to both.
-/
namespace Cowork.Tables
open List

section
variable {κ ι : Type} {V W : κ → Type}

abbrev Table (ι : Type) (V : κ → Type) := (c : κ) → AList (fun _ : ι => V c)

def Table.all (s : Table ι V) (c : κ) : List (V c) := (s c).entries.map (fun entry => entry.2)

def Table.empty : Table ι V := fun _ => ∅

variable [DecidableEq ι]

def Table.find (s : Table ι V) (c : κ) (id : ι) : Option (V c) := (s c).lookup id

variable {s : Table ι V} {c : κ}

theorem mem_all {d : V c} : d ∈ s.all c ↔ ∃ id, s.find c id = some d := by
  unfold Table.all Table.find
  simp only [mem_map]
  constructor
  · rintro ⟨⟨id,d⟩,member,rfl⟩; exact ⟨id,AList.mem_lookup_iff.mpr member⟩
  · rintro ⟨id,found⟩; exact ⟨⟨id,d⟩,AList.mem_lookup_iff.mp found,rfl⟩

@[simp] theorem find_empty (c : κ) (id : ι) : (Table.empty : Table ι V).find c id = none := rfl

def Table.keep (s : Table ι V) (test : (c : κ) → V c → Bool) : Table ι V := fun c =>
  ⟨(s c).entries.filter (fun entry => test c entry.2),(s c).nodupKeys.sublist filter_sublist⟩

theorem find_keep (s : Table ι V) (test : (c : κ) → V c → Bool) (c : κ) (id : ι) :
    (s.keep test).find c id = (s.find c id).filter (test c) := by
  ext d
  rw [Option.filter_eq_some_iff]
  show d ∈ AList.lookup id (s.keep test c) ↔ d ∈ AList.lookup id (s c) ∧ _
  rw [AList.mem_lookup_iff,AList.mem_lookup_iff]
  simp [Table.keep]

def Filtered (test : (c : κ) → V c → Bool) (s t : Table ι V) : Prop :=
  ∀ c id, t.find c id = (s.find c id).filter (test c)

theorem filtered_refl {test : (c : κ) → V c → Bool}
    (all : ∀ c id d, s.find c id = some d → test c d = true) : Filtered test s s := by
  intro c id
  rcases found : s.find c id with _ | d
  · rfl
  · rw [Option.filter_some,if_pos (all c id d found)]

theorem Filtered.trans {first second : (c : κ) → V c → Bool} {t u : Table ι V} (one : Filtered first s t)
    (two : Filtered second t u) : Filtered (fun c d => first c d && second c d) s u := by
  intro c id
  rw [two c id,one c id]
  rcases s.find c id with _ | d
  · rfl
  · simp

theorem Filtered.congr {test test' : (c : κ) → V c → Bool} {t : Table ι V} (filtered : Filtered test s t)
    (same : ∀ c id d, s.find c id = some d → test c d = test' c d) : Filtered test' s t := by
  intro c id
  rw [filtered c id]
  rcases found : s.find c id with _ | d
  · rfl
  · simp only [Option.filter_some,same c id d found]

theorem Filtered.found {test : (c : κ) → V c → Bool} {s t : Table ι V} (filtered : Filtered test s t) {c : κ} {id : ι}
    {d : V c} : t.find c id = some d ↔ s.find c id = some d ∧ test c d = true := by
  rw [filtered c id,Option.filter_eq_some_iff]

theorem all_perm {r : Table ι W} (f : W c → V c)
    (agree : ∀ id, (r.find c id).map f = s.find c id) : ((r.all c).map f).Perm (s.all c) := by
  have same : ((r c).entries.map (Sigma.map id (fun _ => f))).Perm (s c).entries := by
    refine lookup_ext ((r c).nodupKeys.map₂ (fun _ => f) _) (s c).nodupKeys (fun id d => ?_)
    rw [dlookup_map₂]; exact Eq.to_iff (congrArg (fun found => d ∈ found) (agree id))
  unfold Table.all
  rw [map_map]
  have values := same.map (fun entry => entry.2)
  rw [map_map] at values
  exact values

variable [DecidableEq κ]

def Table.put (s : Table ι V) (c : κ) (id : ι) (d : V c) : Table ι V := Function.update s c ((s c).insert id d)
def Table.drop (s : Table ι V) (c : κ) (id : ι) : Table ι V := Function.update s c ((s c).erase id)

theorem find_put (s : Table ι V) (c c' : κ) (id id' : ι) (d : V c) :
    (s.put c id d).find c' id' = if h : c = c' then (if id' = id then some (h ▸ d) else s.find c' id') else s.find c' id' := by
  unfold Table.put Table.find
  by_cases h : c = c'
  · subst h
    by_cases same : id' = id
    · subst same; simp
    · simp [same]
  · simp [h,Function.update_of_ne (Ne.symm h)]

@[simp] theorem find_put_self (s : Table ι V) (c : κ) (id : ι) (d : V c) :
    (s.put c id d).find c id = some d := by simp [find_put]
theorem find_put_id (s : Table ι V) (c : κ) (id id' : ι) (d : V c) (other : id' ≠ id) :
    (s.put c id d).find c id' = s.find c id' := by simp [find_put,other]
theorem find_put_collection (s : Table ι V) {c' : κ} (id id' : ι) (d : V c) (other : c ≠ c') :
    (s.put c id d).find c' id' = s.find c' id' := by simp [find_put,other]
theorem put_collection (s : Table ι V) {c' : κ} (id : ι) (d : V c) (other : c ≠ c') :
    (s.put c id d) c' = s c' := by simp [Table.put,Function.update_of_ne (Ne.symm other)]

theorem find_drop (s : Table ι V) (c c' : κ) (id id' : ι) :
    (s.drop c id).find c' id' = if c = c' ∧ id' = id then none else s.find c' id' := by
  unfold Table.drop Table.find
  by_cases h : c = c'
  · subst h
    by_cases same : id' = id
    · subst same; simp
    · simp [same]
  · simp [h,Function.update_of_ne (Ne.symm h)]

end

end Cowork.Tables
