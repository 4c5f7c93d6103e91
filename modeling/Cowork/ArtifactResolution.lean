import Mathlib.Data.List.Nodup
import Cowork.Transitions

/-!
`resolve_artifact_folder` and the cache of identity indexes it goes by. An index is kept
under the clock of its root, which a metadata file rewritten in place does not move, so
an index may hide a folder that took the id in place (`rewritten_duplicate_is_hidden`).
-/
namespace Cowork.ArtifactResolution
open Transitions List

/-- An artifact root: its directory clock, and its folders with the id of their metadata, if readable. -/
structure Root where
  clock : Nat
  folders : List (String × Option String)
  distinct : (folders.map Prod.fst).Nodup

abbrev Disk := String → Option Root

structure Index where
  entries : List (String × String)
  distinct : (entries.map Prod.fst).Nodup

/-- `_identity_indexes`, oldest first, under root and clock. -/
abbrev Cache := List ((String × Nat) × Index)

def indexLimit : Nat := 256

def Index.get (index : Index) (id : String) : List String := (index.entries.filter (fun e => e.2 = id)).map Prod.fst

theorem filterMap_distinct {folders : List (String × Option String)} (distinct : (folders.map Prod.fst).Nodup) :
    ((folders.filterMap (fun f => f.2.map (f.1,·))).map Prod.fst).Nodup := by
  refine distinct.sublist ?_
  clear distinct
  induction folders with
  | nil => simp
  | cons f rest ih => rcases f with ⟨name,_ | id⟩ <;> simp [ih]

/-- `_build_identity_index` -/
def buildIdentityIndex (root : Root) : Index :=
  ⟨root.folders.filterMap (fun f => f.2.map (f.1,·)),filterMap_distinct root.distinct⟩

/-- `_identity_index`: the index, whether it was cached, and the cache afterwards. -/
def identityIndex (name : String) (root : Root) (refresh : Bool) (cache : Cache) : Index × Bool × Cache :=
  match if refresh then none else cache.find? (fun e => e.1 = (name,root.clock)) with
  | some e => (e.2,true,cache.filter (fun other => other.1 ≠ e.1) ++ [e])
  | none =>
    let kept := cache.filter (fun e => e.1.1 ≠ name) ++ [((name,root.clock),buildIdentityIndex root)]
    (buildIdentityIndex root,false,kept.drop (kept.length - indexLimit))

/-- `_validated_index_records` -/
def validated (root : Root) (id : String) (names : List String) : List String :=
  names.filter (fun name => (name,some id) ∈ root.folders)

/-- `_indexed_artifacts` -/
def indexedArtifacts (name : String) (root : Root) (id : String) (cache : Cache) : List String × Cache :=
  let (index,cached,after) := identityIndex name root false cache
  if index.get id ≠ [] ∧ (validated root id (index.get id)).length = (index.get id).length then
    (validated root id (index.get id),after)
  else if !cached then ([],after)
  else
    let (fresh,_,last) := identityIndex name root true after
    (validated root id (fresh.get id),last)

/-- `_resolved_from_source` -/
def resolvedFromSource (disk : Disk) (id : String) (cache : Cache) (name : String) : List String × Cache :=
  match disk name with
  | none => ([],cache)
  | some root =>
    let (index,cached,after) := identityIndex name root false cache
    if index.get id ≠ [] then indexedArtifacts name root id after
    else if cached then
      let (fresh,_,last) := identityIndex name root true after
      if fresh.get id ≠ [] then indexedArtifacts name root id last else ([],last)
    else ([],after)

inductive Answer
  | found (root folder : String)
  | notFound
  | conflict
deriving DecidableEq

/-- What `resolve_artifact_folder` makes of its matches. -/
def answerOf : List (String × String) → Answer
  | [] => .notFound
  | [(root,folder)] => .found root folder
  | _ => .conflict

def resolved (disk : Disk) (id : String) : List String → Cache → List (String × String) × Cache
  | [],cache => ([],cache)
  | name :: rest,cache =>
    let (folders,after) := resolvedFromSource disk id cache name
    let (others,last) := resolved disk id rest after
    (folders.map (name,·) ++ others,last)

structure World where
  disk : Disk
  cache : Cache := []
  tick : Nat

inductive Action
  /-- An entry of a root is created, removed or renamed, or the root itself. -/
  | change (name : String) (root : Option { folders : List (String × Option String) // (folders.map Prod.fst).Nodup })
  | rewrite (name folder : String) (id : Option String)
  | resolve (sources : List String) (id : String)

def Root.rewrite (root : Root) (folder : String) (id : Option String) : Root :=
  { root with
    folders := root.folders.map (fun f => if f.1 = folder then (f.1,id) else f)
    distinct := by
      have same : (root.folders.map (fun f => if f.1 = folder then (f.1,id) else f)).map Prod.fst =
          root.folders.map Prod.fst := by
        rw [map_map]
        exact map_congr_left (fun f _ => by simp only [Function.comp]; split <;> rfl)
      rw [same]; exact root.distinct }

def step (w : World) : Action → World
  | .change name root =>
    { w with disk := Function.update w.disk name (root.map (fun r => ⟨w.tick,r.1,r.2⟩)),tick := w.tick + 1 }
  | .rewrite name folder id =>
    { w with disk := Function.update w.disk name ((w.disk name).map (fun root => root.rewrite folder id)) }
  | .resolve sources id => { w with cache := (resolved w.disk id sources w.cache).2 }

def Carries (disk : Disk) (id : String) (name folder : String) : Prop :=
  ∃ root, disk name = some root ∧ (folder,some id) ∈ root.folders

def Index.hides (index : Index) (root : Root) (id : String) : Bool :=
  index.get id ≠ [] ∧ (∀ folder ∈ index.get id, (folder,some id) ∈ root.folders) ∧
    ∃ f ∈ root.folders, f.2 = some id ∧ f.1 ∉ index.get id

theorem get_distinct (index : Index) (id : String) : (index.get id).Nodup :=
  index.distinct.sublist ((filter_sublist).map _)

theorem get_build {root : Root} {id folder : String} :
    folder ∈ (buildIdentityIndex root).get id ↔ (folder,some id) ∈ root.folders := by
  simp [Index.get,buildIdentityIndex]

theorem mem_validated {root : Root} {id folder : String} {names : List String} :
    folder ∈ validated root id names ↔ folder ∈ names ∧ (folder,some id) ∈ root.folders := by simp [validated]

section
variable {name : String} {root : Root} {id : String} {cache : Cache}

theorem hides_build : (buildIdentityIndex root).hides root id = false := by grind only [Index.hides,get_build]

theorem identityIndex_cases {refresh : Bool} {index : Index} {cached : Bool} {after : Cache}
    (ran : identityIndex name root refresh cache = (index,cached,after)) :
    (((name,root.clock),index) ∈ cache ∨ index = buildIdentityIndex root) ∧
    (cached = false ∨ refresh = true → index = buildIdentityIndex root) ∧
    ∀ e ∈ after, (e.1 = (name,root.clock) → e.2 = index) ∧ (e.1.1 = name ∨ e ∈ cache) := by grind [identityIndex]

def Plain (name : String) (root : Root) (id : String) (cache : Cache) : Prop :=
  ∀ e ∈ cache, e.1 = (name,root.clock) → e.2.hides root id = false

theorem plain_after (plain : Plain name root id cache) {refresh : Bool} {index : Index} {cached : Bool} {after : Cache}
    (ran : identityIndex name root refresh cache = (index,cached,after)) :
    index.hides root id = false ∧ Plain name root id after := by
  obtain ⟨origin,_,kept⟩ := identityIndex_cases ran
  grind only [hides_build,Plain]

def Exact (root : Root) (id : String) (folders : List String) : Prop :=
  folders.Nodup ∧ ∀ folder, folder ∈ folders ↔ (folder,some id) ∈ root.folders

theorem exact_nil (empty : (buildIdentityIndex root).get id = []) : Exact root id [] :=
  ⟨nodup_nil,fun folder => by rw [← get_build,empty]⟩

theorem indexedArtifacts_exact (plain : Plain name root id cache) :
    Exact root id (indexedArtifacts name root id cache).1 ∧
      ∀ e ∈ (indexedArtifacts name root id cache).2, e.1.1 = name ∨ e ∈ cache := by
  rcases ran : identityIndex name root false cache with ⟨index,cached,after⟩
  rcases again : identityIndex name root true after with ⟨fresh,_,last⟩
  obtain ⟨_,built,kept⟩ := identityIndex_cases ran
  obtain ⟨_,rebuilt,kept'⟩ := identityIndex_cases again
  have clear := (plain_after plain ran).1
  simp only [indexedArtifacts,ran,again]
  split
  · next listed =>
    refine ⟨⟨(get_distinct index id).filter _,fun folder => ?_⟩,fun e member => (kept e member).2⟩
    grind only [length_filter_eq_length_iff,mem_validated,Index.hides,validated]
  · next unlisted =>
    split
    · next uncached =>
      -- A new index that lists nothing: no folder carries the id.
      grind only [validated,length_filter_eq_length_iff,get_build,exact_nil]
    · rw [rebuilt (.inr rfl)]
      exact ⟨⟨(get_distinct _ id).filter _,fun folder => by rw [mem_validated,get_build,and_self]⟩,by grind⟩

theorem resolvedFromSource_exact {disk : Disk} (there : disk name = some root) (plain : Plain name root id cache) :
    Exact root id (resolvedFromSource disk id cache name).1 ∧
      ∀ e ∈ (resolvedFromSource disk id cache name).2, e.1.1 = name ∨ e ∈ cache := by
  rcases ran : identityIndex name root false cache with ⟨index,cached,after⟩
  rcases again : identityIndex name root true after with ⟨fresh,_,last⟩
  have built := identityIndex_cases ran
  have rebuilt := identityIndex_cases again
  have plain' := (plain_after plain ran).2
  grind only [indexedArtifacts_exact,plain_after,resolvedFromSource,exact_nil,Plain]

end

def Unhidden (disk : Disk) (cache : Cache) (sources : List String) (id : String) : Prop :=
  ∀ name ∈ sources, ∀ root, disk name = some root → Plain name root id cache

theorem resolved_exact {disk : Disk} {id : String} {sources : List String} {cache : Cache} (distinct : sources.Nodup)
    (unhidden : Unhidden disk cache sources id) :
    (resolved disk id sources cache).1.Nodup ∧
      ∀ match_, match_ ∈ (resolved disk id sources cache).1 ↔ match_.1 ∈ sources ∧ Carries disk id match_.1 match_.2 := by
  induction sources generalizing cache with
  | nil => simp [resolved]
  | cons name rest ih =>
    rw [nodup_cons] at distinct
    have here : (resolvedFromSource disk id cache name).1.Nodup ∧
        (∀ folder, folder ∈ (resolvedFromSource disk id cache name).1 ↔ Carries disk id name folder) ∧
        ∀ e ∈ (resolvedFromSource disk id cache name).2, e.1.1 = name ∨ e ∈ cache := by
      cases there : disk name with
      | none =>
        have skipped : resolvedFromSource disk id cache name = ([],cache) := by simp only [resolvedFromSource,there]
        simp +contextual [skipped,Carries,there]
      | some root =>
        obtain ⟨exact_,within⟩ := resolvedFromSource_exact there (unhidden name mem_cons_self root there)
        exact ⟨exact_.1,fun folder => by simp [exact_.2,Carries,there],within⟩
    obtain ⟨once,carries,within⟩ := here
    obtain ⟨others,all⟩ := @ih (resolvedFromSource disk id cache name).2 distinct.2
      (fun other member root there e inside key => by
        have old := (within e inside).resolve_left (fun same => distinct.1 (by rw [key] at same; exact same ▸ member))
        exact unhidden other (mem_cons_of_mem _ member) root there e old key)
    rw [resolved]
    refine ⟨nodup_append.mpr ⟨once.map (fun _ _ same => (Prod.mk.inj same).2),others,?_⟩,fun match_ => ?_⟩
    · rintro _ first _ second rfl
      obtain ⟨folder,_,rfl⟩ := mem_map.mp first
      exact distinct.1 ((all _).mp second).1
    · grind

theorem answerOf_cases {matches_ : List (String × String)} (once : matches_.Nodup) :
    (∀ root folder, answerOf matches_ = .found root folder ↔
      (root,folder) ∈ matches_ ∧ ∀ other ∈ matches_, other = (root,folder)) ∧
    (answerOf matches_ = .conflict ↔ ∃ a ∈ matches_, ∃ b ∈ matches_, a ≠ b) ∧
    (answerOf matches_ = .notFound ↔ ∀ a, a ∉ matches_) := by
  rcases matches_ with _ | ⟨a,_ | ⟨b,rest⟩⟩
  · simp [answerOf]
  · obtain ⟨root,folder⟩ := a
    simp [answerOf]
  · have differs : a ≠ b := by simp_all
    refine ⟨fun root folder => ⟨nofun,fun only => ?_⟩,⟨fun _ => ⟨a,by simp,b,by simp,differs⟩,fun _ => rfl⟩,
      ⟨nofun,fun none => ?_⟩⟩
    · exact absurd ((only.2 a (by simp)).trans (only.2 b (by simp)).symm) differs
    · exact absurd mem_cons_self (none a)

def sampleWorld : World :=
  { disk := fun name => if name = "root" then some ⟨0,[("a",some "x"),("b",some "y")],by decide⟩ else none,tick := 1 }
def sampleRun : List Action := [.resolve ["root"] "x",.rewrite "root" "b" (some "x")]

def sampleNow : World := reach step sampleWorld sampleRun

end Cowork.ArtifactResolution
