import Cowork.Transitions

/-!
The seeding of the packaged skills, `ensure_builtin_skills`, under calls that are cut
off at any file operation: between two skills that does no harm; inside a skill it
leaves a folder that no later call completes (`half_copied_skill_stays`).
-/
namespace Cowork.BuiltinSeeding
open Transitions List

inductive Entry
  | dir
  | file (bytes : List UInt8) (mode : Nat)
deriving DecidableEq

abbrev Folder := List String → Option Entry

inductive Marker
  | absent
  | digits (version : Nat)
  | other
deriving DecidableEq

/-- `int(raw) if raw.isdigit() else 0` -/
def Marker.current : Marker → Nat
  | .digits version => version
  | .absent | .other => 0

structure Store where
  folders : String → Option Folder := fun _ => none
  /-- A planted link, for which `_skill_dir` raises `ValueError`. -/
  foreign : String → Bool := fun _ => false
  marker : Marker := .absent

structure PackagedFile where
  path : List String
  bytes : List UInt8
  mode : Nat

/-- A packaged skill, with its files in the order of `sorted(src.rglob("*"))`. -/
structure Skill where
  name : String
  files : List PackagedFile
  distinct : (files.map PackagedFile.path).Nodup

/-- The skills that a store ships: folders with a `SKILL.md` that it includes. -/
structure Catalogue where
  version : Nat
  skills : List Skill
  includes : String → Bool
  distinct : (skills.map Skill.name).Nodup

def Catalogue.offered (c : Catalogue) : List Skill :=
  c.skills.filter (fun skill => skill.files.any (fun f => f.path = ["SKILL.md"]) && c.includes skill.name)

inductive Op
  | mkdir (path : List String)
  | create (path : List String)
  | append (path : List String) (byte : UInt8)
  | stat (path : List String) (mode : Nat)

def Entry.append (byte : UInt8) : Entry → Entry
  | .dir => .dir
  | .file bytes mode => .file (bytes ++ [byte]) mode

def Entry.stat (mode : Nat) : Entry → Entry
  | .dir => .dir
  | .file bytes _ => .file bytes mode

def Op.apply (folder : Folder) : Op → Folder
  | .mkdir path => if folder path = none then Function.update folder path (some .dir) else folder
  | .create path => Function.update folder path (some (.file [] 0))
  | .append path byte => Function.update folder path ((folder path).map (Entry.append byte))
  | .stat path mode => Function.update folder path ((folder path).map (Entry.stat mode))

/-- `mkdir(parents=True, exist_ok=True)` and `copy2` of one file. -/
def PackagedFile.ops (f : PackagedFile) : List Op :=
  (List.range f.path.length).map (fun k => .mkdir (f.path.take k)) ++ .create f.path ::
    f.bytes.map (.append f.path) ++ [.stat f.path f.mode]

def Skill.ops (skill : Skill) : List Op := skill.files.flatMap PackagedFile.ops

/-- The first `n` operations of a copy, in a folder that did not exist. -/
def Skill.copied (skill : Skill) (n : Nat) : Folder := (skill.ops.take n).foldl Op.apply (fun _ => none)

def Store.write (s : Store) (name : String) (folder : Folder) : Store :=
  { s with folders := Function.update s.folders name (some folder) }

theorem write_folders (s : Store) (name other : String) (folder : Folder) :
    (s.write name folder).folders other = if other = name then some folder else s.folders other :=
  Function.update_apply ..

/-- `_copy_builtin_skills` with `n` file operations before the cut, and what is left of them. -/
def copyBuiltinSkills : List Skill → Nat → Store → Store × Option Nat
  | [],n,s => (s,some n)
  | skill :: rest,n,s =>
    if s.foreign skill.name || (s.folders skill.name).isSome then copyBuiltinSkills rest n s
    else if skill.ops.length ≤ n then
      copyBuiltinSkills rest (n - skill.ops.length) (s.write skill.name (skill.copied skill.ops.length))
    else (if n = 0 then s else s.write skill.name (skill.copied n),none)

/-- `ensure_builtin_skills`, cut off after `n` file operations. The marker is written
    by opening its file, which empties it, and by one write. -/
def ensureBuiltinSkills (c : Catalogue) (s : Store) (n : Nat) : Store :=
  if c.version ≤ s.marker.current then s
  else match copyBuiltinSkills c.offered n s with
    | (t,none) => t
    | (t,some 0) => t
    | (t,some 1) => { t with marker := .other }
    | (t,some (_ + 2)) => { t with marker := .digits c.version }

def Skill.Present (skill : Skill) (folder : Folder) : Prop :=
  ∀ f ∈ skill.files, folder f.path = some (.file f.bytes f.mode)

def Op.target : Op → Option (List String)
  | .mkdir _ => none
  | .create path | .append path _ | .stat path _ => some path

theorem foldl_elsewhere {path : List String} {entry : Entry} (ops : List Op) (folder : Folder)
    (there : folder path = some entry) (other : ∀ op ∈ ops, op.target ≠ some path) :
    ops.foldl Op.apply folder path = some entry := by
  induction ops generalizing folder with
  | nil => exact there
  | cons op rest ih =>
    refine ih _ ?_ (fun op member => other op (mem_cons_of_mem _ member))
    have differs := other op mem_cons_self
    cases op <;> simp only [Op.apply,Op.target] at differs ⊢ <;> (try split) <;>
      grind

theorem foldl_append (path : List String) (bytes before : List UInt8) (mode : Nat) (folder : Folder)
    (there : folder path = some (.file before mode)) :
    (bytes.map (Op.append path)).foldl Op.apply folder path = some (.file (before ++ bytes) mode) := by
  induction bytes generalizing folder before with
  | nil => simpa using there
  | cons byte rest ih =>
    have step : Op.apply folder (.append path byte) path = some (.file (before ++ [byte]) mode) := by
      simp [Op.apply,there,Entry.append]
    simpa using ih (before ++ [byte]) _ step

theorem copied_file (f : PackagedFile) (folder : Folder) :
    f.ops.foldl Op.apply folder f.path = some (.file f.bytes f.mode) := by
  rw [PackagedFile.ops,List.foldl_append,List.foldl_append]
  generalize foldl Op.apply folder _ = made
  have filled := foldl_append f.path f.bytes [] 0 (Op.apply made (.create f.path)) (by simp [Op.apply])
  simp only [foldl_cons,Op.apply] at filled ⊢
  simp [filled,Entry.stat]

theorem mem_ops_target {f : PackagedFile} {op : Op} {path : List String} (member : op ∈ f.ops)
    (target : op.target = some path) : path = f.path := by
  grind only [PackagedFile.ops,mem_append,mem_map,mem_cons,not_mem_nil,Op.target]

theorem copied_present (skill : Skill) : skill.Present (skill.copied skill.ops.length) := by
  rw [Skill.Present,Skill.copied,take_length,Skill.ops]
  generalize (fun _ => none : Folder) = start
  have distinct := skill.distinct
  generalize skill.files = files at distinct
  intro f member
  -- The copies of later files do not write to the path of this one.
  induction files generalizing start with
  | nil => simp at member
  | cons first rest ih =>
    rw [map_cons,nodup_cons] at distinct
    rw [List.flatMap_cons,List.foldl_append]
    grind only [mem_cons,foldl_elsewhere,copied_file,mem_flatMap,mem_map,mem_ops_target]

def interrupts : List Skill → Nat → Store → Bool
  | [],_,_ => false
  | skill :: rest,n,s =>
    if s.foreign skill.name || (s.folders skill.name).isSome then interrupts rest n s
    else if skill.ops.length ≤ n then
      interrupts rest (n - skill.ops.length) (s.write skill.name (skill.copied skill.ops.length))
    else n ≠ 0

def Careful (c : Catalogue) (s : Store) (n : Nat) : Prop := c.version ≤ s.marker.current ∨ interrupts c.offered n s = false

instance (c : Catalogue) (s : Store) (n : Nat) : Decidable (Careful c s n) := inferInstanceAs (Decidable (_ ∨ _))

structure Seeds (skills : List Skill) (s t : Store) : Prop where
  foreign : t.foreign = s.foreign
  kept : ∀ name folder, s.folders name = some folder → t.folders name = some folder
  whole : ∀ skill ∈ skills, s.folders skill.name = none →
    t.folders skill.name = none ∨ ∃ folder, t.folders skill.name = some folder ∧ skill.Present folder

theorem copy_seeds (skills : List Skill) (distinct : (skills.map Skill.name).Nodup) (n : Nat) (s : Store)
    (careful : interrupts skills n s = false) :
    Seeds skills s (copyBuiltinSkills skills n s).1 ∧ (copyBuiltinSkills skills n s).1.marker = s.marker ∧
      (∀ name ∉ skills.map Skill.name, (copyBuiltinSkills skills n s).1.folders name = s.folders name) ∧
      ((copyBuiltinSkills skills n s).2 ≠ none → ∀ skill ∈ skills, s.foreign skill.name = false →
        (copyBuiltinSkills skills n s).1.folders skill.name ≠ none) := by
  induction skills generalizing n s with
  | nil => exact ⟨⟨rfl,fun _ _ found => found,by simp⟩,rfl,fun _ _ => rfl,by simp⟩
  | cons first rest ih =>
    rw [map_cons,nodup_cons] at distinct
    rw [interrupts] at careful
    rw [copyBuiltinSkills]
    split
    · next skipped =>
      rw [if_pos skipped] at careful
      obtain ⟨⟨foreign,kept,whole⟩,marker,others,done⟩ := ih distinct.2 n s careful
      refine ⟨⟨foreign,kept,?_⟩,marker,?_,?_⟩ <;> grind
    · next missing =>
      rw [if_neg missing] at careful
      split
      · next enough =>
        rw [if_pos enough] at careful
        obtain ⟨⟨foreign,kept,whole⟩,marker,others,done⟩ := ih distinct.2 _ _ careful
        have present := copied_present first
        have before := write_folders s first.name
        generalize copyBuiltinSkills rest _ _ = result at *
        refine ⟨⟨foreign,?_,?_⟩,marker,?_,?_⟩ <;> grind [Store.write]
      · next short =>
        simp only [if_neg short,decide_eq_false_iff_not,not_not] at careful
        subst careful
        exact ⟨⟨rfl,fun _ _ found => found,fun _ _ absent => .inl absent⟩,rfl,fun _ _ => rfl,by simp⟩

/-- The state of a store that was `s` before the first call. -/
structure Inv (c : Catalogue) (s t : Store) : Prop extends Seeds c.offered s t where
  done : c.version ≤ t.marker.current → ∀ skill ∈ c.offered, s.foreign skill.name = false → t.folders skill.name ≠ none

theorem ensure_inv {c : Catalogue} {s t : Store} (inv : Inv c s t) (n : Nat) (careful : Careful c t n) :
    Inv c s (ensureBuiltinSkills c t n) := by
  unfold ensureBuiltinSkills
  split
  · exact inv
  next unseeded =>
  have calm := careful.resolve_left unseeded
  have distinct : (c.offered.map Skill.name).Nodup := c.distinct.sublist ((filter_sublist).map _)
  obtain ⟨⟨foreign,kept,whole⟩,marker,_,complete⟩ := copy_seeds c.offered distinct n t calm
  obtain ⟨⟨foreign',kept',whole'⟩,done⟩ := inv
  generalize copyBuiltinSkills c.offered n t = result at *
  obtain ⟨u,left⟩ := result
  have seeds : Seeds c.offered s u := ⟨foreign.trans foreign',fun name folder found => kept name folder (kept' name folder found),
    by grind⟩
  have still : ¬c.version ≤ u.marker.current := marker ▸ unseeded
  rcases left with _ | _ | _ | more
  · exact ⟨seeds,fun seeded => absurd seeded still⟩
  · exact ⟨seeds,fun seeded => absurd seeded still⟩
  · exact ⟨⟨seeds.foreign,seeds.kept,seeds.whole⟩,fun seeded => absurd (Nat.le_trans seeded (Nat.zero_le _)) unseeded⟩
  · exact ⟨⟨seeds.foreign,seeds.kept,seeds.whole⟩,by grind⟩

/-- If no call is cut off inside a skill: the folders that were there stay as they were, and once the marker is written
    every missing packaged skill whose name no link takes is there in full, for good. -/
theorem seeding_between_skills (c : Catalogue) {s : Store} (unseeded : s.marker.current < c.version) {cuts : List Nat}
    (careful : Permitted (ensureBuiltinSkills c) (Careful c) s cuts) :
    ∃ t, reach (ensureBuiltinSkills c) s cuts = t ∧
      (∀ name folder, s.folders name = some folder → t.folders name = some folder) ∧
      (c.version ≤ t.marker.current →
        (∀ skill ∈ c.offered, s.folders skill.name = none → s.foreign skill.name = false →
          ∃ folder, t.folders skill.name = some folder ∧ skill.Present folder) ∧
        ∀ n, ensureBuiltinSkills c t n = t) := by
  have first : Inv c s s := ⟨⟨rfl,fun _ _ found => found,fun _ _ absent => .inl absent⟩,by omega⟩
  have inv := @invariant_reach _ _ _ (Inv c s) _ (fun _ n inv allowed => ensure_inv inv n allowed) _ first _ careful
  refine ⟨_,rfl,inv.kept,fun seeded => ⟨fun skill offered absent own => ?_,fun n => ?_⟩⟩
  · exact (inv.whole skill offered absent).resolve_left (inv.done seeded skill offered own)
  · rw [ensureBuiltinSkills,if_pos seeded]

def sampleSkill : Skill := { name := "docs",files := [{ path := ["SKILL.md"],bytes := [35],mode := 420 }],distinct := by simp }
def sampleCatalogue : Catalogue := { version := 1,skills := [sampleSkill],includes := fun _ => true,distinct := by simp }

theorem seeding_between_skills_sample :
    Permitted (ensureBuiltinSkills sampleCatalogue) (Careful sampleCatalogue) {} [0,9] ∧
      (reach (ensureBuiltinSkills sampleCatalogue) {} [0,9]).marker = .digits 1 ∧
      ∃ folder, (reach (ensureBuiltinSkills sampleCatalogue) {} [0,9]).folders "docs" = some folder ∧
        sampleSkill.Present folder := by
  have careful : Permitted (ensureBuiltinSkills sampleCatalogue) (Careful sampleCatalogue) {} [0,9] := by decide
  obtain ⟨t,rfl,_,seeded⟩ := seeding_between_skills sampleCatalogue (by decide) careful
  exact ⟨careful,by decide,(seeded (by decide)).1 sampleSkill mem_cons_self rfl rfl⟩

/-- The first call is cut off after it has made the folder; the second writes the marker. -/
theorem half_copied_skill_stays :
    (reach (ensureBuiltinSkills sampleCatalogue) {} [1,9]).marker = .digits 1 ∧
      ((reach (ensureBuiltinSkills sampleCatalogue) {} [1,9]).folders "docs").map (fun folder => folder ["SKILL.md"]) =
        some none := by decide

end Cowork.BuiltinSeeding
