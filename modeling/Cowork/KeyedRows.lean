import Mathlib.Data.List.Nodup

/-!
Rows that are named by a key they carry: an insertion or a replacement that would repeat
a key fails. The rows that pass a test can be looked at apart (`keep`): what is done to
such rows is done to that part, and what is done to the others leaves it as it was.
-/
namespace Cowork.KeyedRows
open List

section
variable {α κ : Type} {key : α → κ}

@[ext] structure Rows (key : α → κ) where
  rows : List α
  unique : (rows.map key).Nodup

instance [DecidableEq α] : DecidableEq (Rows key) := fun t u => decidable_of_iff (t.rows = u.rows) Rows.ext_iff.symm

def Rows.keep (t : Rows key) (test : α → Bool) : Rows key :=
  ⟨t.rows.filter test,t.unique.sublist (filter_sublist.map key)⟩

variable {t u : Rows key} {a : α} {k : κ} {test : α → Bool}

theorem mem_keep : a ∈ (t.keep test).rows ↔ a ∈ t.rows ∧ test a = true :=
  mem_filter

def Rows.Pass (t : Rows key) (test : α → Bool) (k : κ) : Prop := ∀ a ∈ t.rows, key a = k → test a = true

theorem pass_found (member : a ∈ t.rows) (passes : test a = true) : t.Pass test (key a) := by
  intro b other same
  rwa [inj_on_of_nodup_map t.unique other member same]

theorem pass_congr (same : t.keep test = u.keep test) (pass : u.Pass (fun a => !test a) k) :
    t.Pass (fun a => !test a) k := by
  intro a member keyed
  cases passes : test a with
  | false => simp [passes]
  | true =>
    have kept : a ∈ (t.keep test).rows := mem_keep.mpr ⟨member,passes⟩
    rw [same] at kept
    have fails := pass a (mem_keep.mp kept).1 keyed
    simp [passes] at fails

variable [DecidableEq κ]

instance (t : Rows key) (test : α → Bool) (k : κ) : Decidable (t.Pass test k) :=
  inferInstanceAs (Decidable (∀ a ∈ t.rows, key a = k → test a = true))

def Rows.find (t : Rows key) (k : κ) : Option α := t.rows.find? (fun a => key a = k)

theorem find_some : t.find k = some a ↔ a ∈ t.rows ∧ key a = k := by
  constructor
  · intro found; exact ⟨mem_of_find?_eq_some found,by simpa using find?_some found⟩
  · rintro ⟨member,rfl⟩
    cases found : t.find (key a) with
    | none => simpa using find?_eq_none.mp found a member
    | some b =>
      have same : key b = key a := by simpa using find?_some found
      rw [inj_on_of_nodup_map t.unique (mem_of_find?_eq_some found) member same]

theorem find_none : t.find k = none ↔ ∀ a ∈ t.rows, key a ≠ k := by simp [Rows.find]

theorem find_keep (t : Rows key) (test : α → Bool) (k : κ) : (t.keep test).find k = (t.find k).filter test := by
  ext a
  rw [find_some,mem_keep,Option.filter_eq_some_iff,find_some,and_right_comm]

theorem find_keep_pass (pass : t.Pass test k) : (t.keep test).find k = t.find k := by
  rw [find_keep]
  cases found : t.find k <;> grind [find_some,Rows.Pass]

theorem pass_absent (absent : t.find k = none) : t.Pass test k :=
  fun a member same => absurd same (find_none.mp absent a member)

def Rows.insert (t : Rows key) (a : α) : Option (Rows key) :=
  if absent : ∀ b ∈ t.rows, key b ≠ key a then
    some ⟨t.rows ++ [a],by
      rw [map_append]
      refine t.unique.append (nodup_singleton _) ?_
      intro k old new
      obtain ⟨b,member,rfl⟩ := mem_map.mp old
      exact absent b member (mem_singleton.mp new)⟩
  else none

def Rows.replace (t : Rows key) (k : κ) (a : α) : Option (Rows key) :=
  if free : key a = k ∨ ∀ b ∈ t.rows, key b ≠ key a then
    some ⟨t.rows.map (fun b => if key b = k then a else b),by
      have keys : (t.rows.map (fun b => if key b = k then a else b)).map key =
          (t.rows.map key).map (fun l => if l = k then key a else l) := by
        simp only [map_map]
        exact map_congr_left (fun b _ => by by_cases here : key b = k <;> simp [here])
      rw [keys]
      refine t.unique.map_on ?_
      intro l one m other same
      obtain ⟨b,inside,rfl⟩ := mem_map.mp one
      obtain ⟨c,within,rfl⟩ := mem_map.mp other
      by_cases here : key b = k <;> by_cases there : key c = k <;> simp only [here,there,if_true,if_false] at same
      · rw [here,there]
      · rcases free with stays | absent
        · exact absurd (same ▸ stays) there
        · exact absurd same.symm (absent c within)
      · rcases free with stays | absent
        · exact absurd (same.trans stays) here
        · exact absurd same (absent b inside)
      · exact same⟩
  else none

def Rows.erase (t : Rows key) (k : κ) : Rows key := t.keep (fun a => key a ≠ k)

theorem insert_some (done : t.insert a = some u) : t.find (key a) = none ∧ u.rows = t.rows ++ [a] := by
  unfold Rows.insert at done
  split at done
  · cases done; exact ⟨find_none.mpr (by assumption),rfl⟩
  · cases done

theorem replace_some (done : t.replace k a = some u) : (key a = k ∨ t.find (key a) = none) ∧ u.rows = t.rows.map
    (fun b => if key b = k then a else b) := by
  unfold Rows.replace at done
  split at done
  · cases done; exact ⟨by simpa only [find_none],rfl⟩
  · cases done

theorem insert_keep (pass : t.Pass test (key a)) (passes : test a = true) :
    (t.keep test).insert a = (t.insert a).map (·.keep test) := by
  unfold Rows.insert
  have same : (∀ b ∈ (t.keep test).rows, key b ≠ key a) ↔ ∀ b ∈ t.rows, key b ≠ key a := by
    rw [← find_none,← find_none,find_keep_pass pass]
  by_cases absent : ∀ b ∈ t.rows, key b ≠ key a
  · rw [dif_pos absent,dif_pos (same.mpr absent)]
    simp [Rows.keep,passes]
  · rw [dif_neg absent,dif_neg (mt same.mp absent)]; rfl

theorem insert_rest (done : t.insert a = some u) (fails : test a = false) : u.keep test = t.keep test := by
  ext1
  show u.rows.filter test = t.rows.filter test
  rw [(insert_some done).2]
  simp [fails]

theorem replace_keep (pass : t.Pass test k) (target : t.Pass test (key a)) (passes : test a = true) :
    (t.keep test).replace k a = (t.replace k a).map (·.keep test) := by
  grind [Rows.replace,Rows.keep,filter_congr,Rows.Pass]

theorem replace_rest (done : t.replace k a = some u) (pass : t.Pass (fun b => !test b) k) (fails : test a = false) :
    u.keep test = t.keep test := by
  ext1
  show u.rows.filter test = t.rows.filter test
  rw [(replace_some done).2,filter_map]
  grind only [mem_filter,filter_congr,map_congr_left,map_id',Rows.Pass]

theorem erase_keep (t : Rows key) (k : κ) : (t.keep test).erase k = (t.erase k).keep test := by
  ext1
  simp only [Rows.erase,Rows.keep,filter_filter,Bool.and_comm]

theorem erase_rest (pass : t.Pass (fun b => !test b) k) : (t.erase k).keep test = t.keep test := by
  ext1
  simp only [Rows.erase,Rows.keep,filter_filter]
  grind only [filter_congr,Bool.not_eq_true',Rows.Pass]

end

end Cowork.KeyedRows
