import Mathlib.Data.Nat.Digits.Lemmas
import Mathlib.Data.List.Forall2

/-!
`relocate_to_project`: the artifact folders of a task move to another project, and its
index rows follow. A row whose folder is gone is retargeted without a look, so it may
come to name another's folder (`rows_name_other_folders`).
-/
namespace Cowork.TaskRelocation
open List

abbrev Name := List Char

def nameLimit : Nat := 255

/-- `str(i)` -/
def decimal (i : Nat) : Name := (Nat.digits 10 i).reverse.map Nat.digitChar

inductive Project
  | source
  | dest
  | other (k : Nat)
deriving DecidableEq

structure Row where
  project : Project
  ref : Name
deriving DecidableEq

abbrev Tree (α : Type) := List (Name × α)

def names {α : Type} (tree : Tree α) : List Name := tree.map Prod.fst

structure Task (α : Type) where
  /-- `str(conversation_id)[:8]` -/
  short : Name
  orgMode : Bool
  creator : Option String
  owner : Name → Option String
  /-- The source's folders whose provenance names the task. -/
  created : List Name
  /-- The moves that fail, with what a failed one leaves under the new name. -/
  fails : Name → Option (Option α)

/-- `index_artifact` -/
def indexArtifact (rows : List Row) (slug : Name) : List Row :=
  if rows.any (fun row => row.ref = slug) then
    rows.map (fun row => if row.ref = slug then { row with project := .source } else row)
  else rows ++ [⟨.source,slug⟩]

section
variable {α : Type} (task : Task α)

/-- `reconcile_conversation` -/
def reconcile (rows : List Row) : List Row := if task.orgMode then rows else task.created.foldl indexArtifact rows

/-- `exists()`, which raises for a name that is too long. -/
def existsIn (dst : Tree α) (name : Name) : Except Unit Bool :=
  if nameLimit < name.length then .error () else .ok (dst.any (fun e => e.1 = name))

def counted (base : Name) (i : Nat) : Name := base ++ '-' :: decimal i

/-- `_unique_slug`. The loop over the counter ends within one step more than there are folders (`counter_ends`). -/
def uniqueSlug (dst : Tree α) (slug : Name) : Except Unit Name := do
  if !(← existsIn dst slug) then return slug
  let base := (task.short ++ '-' :: slug).take nameLimit
  if !(← existsIn dst base) then return base
  match (List.range (dst.length + 1)).find? (fun k => existsIn dst (counted base (k + 2)) ≠ .ok true) with
  | none => .error ()
  | some k => do
    let _ ← existsIn dst (counted base (k + 2))
    return (counted base (k + 2)).take nameLimit

def refuses (name : Name) : Bool := task.orgMode && (task.creator = none || task.owner name ≠ task.creator)

def consRow (row : Row) (result : Tree α × Tree α × List Row × Bool) : Tree α × Tree α × List Row × Bool :=
  (result.1,result.2.1,row :: result.2.2.1,result.2.2.2)

/-- The loop of `_relocate_artifacts`: both trees, the rows, and whether it raised. -/
def relocateRows : List Row → Tree α → Tree α → Tree α × Tree α × List Row × Bool
  | [],src,dst => (src,dst,[],false)
  | row :: rest,src,dst =>
    match src.find? (fun e => e.1 = row.ref) with
    | none => consRow { row with project := .dest } (relocateRows rest src dst)
    | some e =>
      if refuses task row.ref then consRow row (relocateRows rest src dst)
      else match uniqueSlug task dst row.ref with
        | .error _ => (src,dst,[],true)
        | .ok slug => match task.fails row.ref with
          | some left => consRow row (relocateRows rest src (dst ++ left.toList.map (slug,·)))
          | none => consRow ⟨.dest,slug⟩ (relocateRows rest (src.filter (fun e => e.1 ≠ row.ref)) (dst ++ [(slug,e.2)]))

/-- `relocate_to_project`: nothing of the index is committed if it raises. -/
def relocateToProject (rows : List Row) (src dst : Tree α) : Tree α × Tree α × List Row × Bool :=
  let (src',dst',rows',raised) := relocateRows task (reconcile task rows) src dst
  (src',dst',if raised then reconcile task rows else rows',raised)

theorem decimal_injective : Function.Injective decimal := by
  have digit : ∀ d < 10, (Nat.digitChar d).toNat - 48 = d := by decide
  have back : ∀ i, Nat.ofDigits 10 ((decimal i).reverse.map (fun c => c.toNat - 48)) = i := by
    intro i
    rw [decimal,← map_reverse,reverse_reverse,map_map]
    have same : (Nat.digits 10 i).map ((fun c => c.toNat - 48) ∘ Nat.digitChar) = (Nat.digits 10 i).map id :=
      map_congr_left (fun d member => digit d (Nat.digits_lt_base (by decide) member))
    rw [same,map_id,Nat.ofDigits_digits]
  exact fun i j same => by rw [← back i,same,back j]

theorem counter_ends (dst : Tree α) (base : Name) :
    (List.range (dst.length + 1)).find? (fun k => existsIn dst (counted base (k + 2)) ≠ .ok true) ≠ none := by
  intro all
  have taken : (List.range (dst.length + 1)).map (fun k => counted base (k + 2)) ⊆ names dst := by
    grind [existsIn,names]
  have once : ((List.range (dst.length + 1)).map (fun k => counted base (k + 2))).Nodup := by
    refine (nodup_range).map (fun i j same => ?_)
    simpa using decimal_injective (by simpa [counted] using same : decimal (i + 2) = decimal (j + 2))
  have fits := (once.subperm taken).length_le
  simp [names] at fits

theorem uniqueSlug_free {dst : Tree α} {slug name : Name} (chosen : uniqueSlug task dst slug = .ok name) :
    name ∉ names dst := by
  have free : ∀ {n : Name}, existsIn dst n = .ok false → n ∉ names dst := by
    intro n answer
    unfold existsIn at answer
    split at answer
    · cases answer
    · grind [names]
  unfold uniqueSlug at chosen
  rcases first : existsIn dst slug with _ | _ | _ <;> simp only [first,bind,Except.bind] at chosen
  · cases chosen
  · cases chosen; exact free first
  · generalize (task.short ++ '-' :: slug).take nameLimit = base at chosen
    rcases second : existsIn dst base with _ | _ | _ <;> simp [second] at chosen
    · cases chosen; exact free second
    · split at chosen
      · cases chosen
      · next k found =>
        have ends := find?_some found
        rcases third : existsIn dst (counted base (k + 2)) with _ | _ | _ <;> simp [third] at chosen ends
        -- A counter that `exists()` accepts is short enough to stay as it is.
        have short : (counted base (k + 2)).length ≤ nameLimit := by
          unfold existsIn at third
          split at third
          · cases third
          · omega
        cases chosen
        rw [take_of_length_le short]; exact free third

/-- What becomes of a row: its folder is refused or does not move, is no longer there, or has moved. -/
inductive Follows (src src' dst' : Tree α) (row : Row) : Row → Prop
  | stays (there : row.ref ∈ names src) (held : refuses task row.ref = true ∨ (task.fails row.ref).isSome = true) :
    Follows src src' dst' row row
  | gone (absent : row.ref ∉ names src') : Follows src src' dst' row { row with project := .dest }
  | moved {slug : Name} {folder : α} (own : refuses task row.ref = false) (was : (row.ref,folder) ∈ src)
      (absent : row.ref ∉ names src') (is : (slug,folder) ∈ dst') : Follows src src' dst' row ⟨.dest,slug⟩

variable {task}

theorem Follows.weaken {src later src' dst' : Tree α} {row row' : Row} (follows : Follows task later src' dst' row row')
    (fewer : later ⊆ src) : Follows task src src' dst' row row' := by
  cases follows with
  | stays there held => exact .stays (map_subset Prod.fst fewer there) held
  | gone absent => exact .gone absent
  | moved own was absent is => exact .moved own (fewer was) absent is

structure Relocates (task : Task α) (rows : List Row) (src dst src' dst' : Tree α) (rows' : List Row) (raised : Bool) :
    Prop where
  free : (names dst).Nodup → (names dst').Nodup
  extends_ : dst ⊆ dst'
  fewer : src' ⊆ src
  kept : ∀ e ∈ src, e.1 ∉ rows.map Row.ref ∨ refuses task e.1 = true → e ∈ src'
  follow : raised = false → List.Forall₂ (Follows task src src' dst') rows rows'

theorem relocateRows_relocates (rows : List Row) (src dst : Tree α) :
    ∃ src' dst' rows' raised, relocateRows task rows src dst = (src',dst',rows',raised) ∧
      Relocates task rows src dst src' dst' rows' raised := by
  induction rows generalizing src dst with
  | nil => exact ⟨src,dst,[],false,rfl,⟨id,fun _ => id,fun _ => id,fun _ there _ => there,fun _ => .nil⟩⟩
  | cons row rest ih =>
    rw [relocateRows]
    split
    · next absent =>
      obtain ⟨src',dst',rows',raised,ran,free,more,fewer,kept,follow⟩ := ih src dst
      refine ⟨src',dst',_,raised,by rw [ran]; rfl,free,more,fewer,by grind,fun done => .cons (.gone ?_) (follow done)⟩
      simp only [names,mem_map,not_exists]
      rintro e ⟨inside,same⟩; exact find?_eq_none.mp absent e (fewer inside) (by simpa using same)
    · next e found =>
      have key : e.1 = row.ref := by simpa using find?_some found
      have there := mem_of_find?_eq_some found
      have known : row.ref ∈ names src := key ▸ mem_map_of_mem there
      split
      · next held =>
        obtain ⟨src',dst',rows',raised,ran,free,more,fewer,kept,follow⟩ := ih src dst
        exact ⟨src',dst',_,raised,by rw [ran]; rfl,free,more,fewer,by grind,
          fun done => .cons (.stays known (.inl held)) (follow done)⟩
      · next own =>
        split
        · exact ⟨src,dst,[],true,rfl,⟨id,fun _ => id,fun _ => id,fun _ there _ => there,nofun⟩⟩
        · next slug chosen =>
          have unused := uniqueSlug_free task chosen
          split
          · next left failed =>
            obtain ⟨src',dst',rows',raised,ran,free,more,fewer,kept,follow⟩ := ih src (dst ++ left.toList.map (slug,·))
            refine ⟨src',dst',_,raised,by rw [ran]; rfl,fun once => free ?_,
              fun e inside => more (mem_append_left _ inside),fewer,by grind,
              fun done => .cons (.stays known (.inr (by rw [failed]; rfl))) (follow done)⟩
            cases left <;> grind [names]
          · obtain ⟨src',dst',rows',raised,ran,free,more,fewer,kept,follow⟩ :=
              ih (src.filter (fun e => e.1 ≠ row.ref)) (dst ++ [(slug,e.2)])
            have subset : src.filter (fun e => e.1 ≠ row.ref) ⊆ src := filter_subset_self _
            refine ⟨src',dst',_,raised,by rw [ran]; rfl,fun once => free ?_,
              fun e inside => more (mem_append_left _ inside),fun e inside => subset (fewer inside),?_,
              fun done => .cons ?_ ?_⟩
            · grind [names]
            · grind
            · have absent : row.ref ∉ names src' := by grind [names]
              exact .moved (by simpa using own) (show (row.ref,e.2) ∈ src from key ▸ there) absent (more (by simp))
            · exact (follow done).imp (fun _ _ follows => follows.weaken subset)

end

def sampleTask : Task String :=
  { short := [], orgMode := false, creator := none, owner := fun _ => none, created := [], fails := fun _ => none }

def sampleMove : Task String := { sampleTask with short := ['t'] }

def sampleRows : List Row := [⟨.source,['a']⟩]

def sampleDest : Tree String := [(['a'],"yours"),(['t','-','a'],"mine")]

end Cowork.TaskRelocation
