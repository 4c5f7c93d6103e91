import Cowork.ArtifactResolution

/-!
`review_artifact_for_request` in organization mode. The caller's own roots are searched
first and every member's after them; the grant of what was found is read last, so
ungranted folders take part in the wide search, and may make it a conflict
(`outcome_same_iff`).
-/
namespace Cowork.DraftReview
open ArtifactResolution Transitions

structure Workspace where
  root : String
  conversation : Option String

/-- A row of the scoped catalog. `refused`: another person's project in the operator
    view; `elsewhere`: its folder is in another person's partition. -/
structure Project where
  id : String
  base : String
  workspaces : List Workspace
  refused : Bool := false
  elsewhere : Bool := false
  distinct : (base :: workspaces.map (·.root)).Nodup

structure Caller where
  org : Option String
  projects : List Project
  /-- `owned_ids` -/
  owned : List String
  uuid : String → Option String

/-- What `draft_review_grant` reads: a record that is not readable is absent. -/
structure Grant where
  scope : String
  orgId : Option String

structure State (μ : Type) where
  disk : Disk
  cache : Cache := []
  grant : String → String → Option Grant
  metadata : String → String → μ

abbrev Failure := Nat × String

inductive Outcome (μ : Type)
  | artifact (root folder : String) (metadata : μ) (isOwn : Bool)
  | error (failure : Failure)
deriving DecidableEq

variable {μ : Type} (caller : Caller)

/-- `_project_artifact_bases` -/
def projectArtifactBases (project : Project) (others : Bool) : List String :=
  project.base :: (project.workspaces.filter (fun w => others || w.conversation.any (· ∈ caller.owned))).map (·.root)

def operatorRefusal : Failure :=
  (404,"This project is a person's own; the operator view lists only the deployment's artifacts.")

/-- `_sources_for_project_ref` -/
def sourcesForProjectRef (ref : String) (others : Bool) : Except Failure (List String) :=
  if ref = "local" then .error (404,"Unknown project")
  else match caller.uuid ref with
    | none => .error (400,"Invalid project")
    | some wanted => match caller.projects.find? (fun p => p.id = wanted) with
      | none => .error (404,"Unknown project")
      | some project =>
        if project.refused then .error operatorRefusal
        else .ok (if project.elsewhere then [] else projectArtifactBases caller project others)

/-- `_resolve_in`, and the indexes afterwards -/
def resolveIn (disk : Disk) (sources : List String) (id : String) (cache : Cache) :
    Except Failure (String × String) × Cache :=
  match caller.uuid id with
  | none => (.error (400,"Invalid artifact identity"),cache)
  | some id =>
    let (matches_,after) := resolved disk id sources cache
    match answerOf matches_ with
    | .notFound => (.error (404,"Artifact not found"),after)
    | .conflict => (.error (409,"Artifact identity is duplicated"),after)
    | .found root folder => (.ok (root,folder),after)

def artifactForRequest (disk : Disk) (ref id : String) (others : Bool) (cache : Cache) :
    Except Failure (String × String) × Cache :=
  match sourcesForProjectRef caller ref others with
  | .error failure => (.error failure,cache)
  | .ok sources => resolveIn caller disk sources id cache

/-- `draft_review_allows` -/
def draftReviewAllows (s : State μ) (root folder : String) : Bool :=
  caller.org.any (fun org => org ≠ "" &&
    (s.grant root folder).any (fun grant => grant.scope = "organization" && grant.orgId = some org))

/-- `review_artifact_for_request` -/
def reviewArtifactForRequest (s : State μ) (ref id : String) : Outcome μ :=
  match artifactForRequest caller s.disk ref id false s.cache with
  | (.ok (root,folder),_) => .artifact root folder (s.metadata root folder) true
  | (.error failure,cache) =>
    if failure.1 ≠ 404 then .error failure
    else match artifactForRequest caller s.disk ref id true cache with
      | (.error failure,_) => .error failure
      | (.ok (root,folder),_) =>
        if draftReviewAllows caller s root folder then .artifact root folder (s.metadata root folder) false
        else .error (404,"Artifact not found")

def Fresh (disk : Disk) (cache : Cache) : Prop :=
  ∀ e ∈ cache, ∀ root, disk e.1.1 = some root → e.1.2 = root.clock → e.2 = buildIdentityIndex root

def Holds (disk : Disk) (name folder : String) (id : Option String) : Prop :=
  ∃ root, disk name = some root ∧ (folder,id) ∈ root.folders

def Granted (s : State μ) (name folder : String) : Prop :=
  (∃ id, Holds s.disk name folder id) ∧ draftReviewAllows caller s name folder = true

/-- The two states have the same roots, but for other members' folders with no grant for the caller's organization. -/
structure Alike (s t : State μ) : Prop where
  own : ∀ project ∈ caller.projects, ∀ root ∈ projectArtifactBases caller project false,
    s.disk root = t.disk root ∧ ∀ folder, s.metadata root folder = t.metadata root folder
  granted : ∀ project ∈ caller.projects, ∀ root ∈ projectArtifactBases caller project true, ∀ folder,
    Granted caller s root folder ∨ Granted caller t root folder →
      (∀ id, Holds s.disk root folder id ↔ Holds t.disk root folder id) ∧
        s.grant root folder = t.grant root folder ∧ s.metadata root folder = t.metadata root folder

def Disturbed (s : State μ) (ref id : String) : Prop :=
  ∃ own all wanted, sourcesForProjectRef caller ref false = .ok own ∧ sourcesForProjectRef caller ref true = .ok all ∧
    caller.uuid id = some wanted ∧ (∀ root ∈ own, ∀ folder, ¬Carries s.disk wanted root folder) ∧
    (∃ a b : String × String, a ≠ b ∧ (a.1 ∈ all ∧ Carries s.disk wanted a.1 a.2) ∧ b.1 ∈ all ∧ Carries s.disk wanted b.1 b.2) ∧
    ¬∃ a b : String × String, a ≠ b ∧
      (a.1 ∈ all ∧ Carries s.disk wanted a.1 a.2 ∧ draftReviewAllows caller s a.1 a.2) ∧
      b.1 ∈ all ∧ Carries s.disk wanted b.1 b.2 ∧ draftReviewAllows caller s b.1 b.2

section
variable {disk : Disk} {id : String} {cache : Cache}

theorem fresh_identityIndex {name : String} {root : Root} (there : disk name = some root) (fresh : Fresh disk cache)
    (refresh : Bool) : Fresh disk (identityIndex name root refresh cache).2.2 := by grind [identityIndex,Fresh]

theorem fresh_indexedArtifacts (id : String) {name : String} {root : Root} (there : disk name = some root)
    (fresh : Fresh disk cache) : Fresh disk (indexedArtifacts name root id cache).2 := by
  grind only [fresh_identityIndex,indexedArtifacts]

theorem fresh_resolvedFromSource (id : String) (fresh : Fresh disk cache) (name : String) :
    Fresh disk (resolvedFromSource disk id cache name).2 := by
  grind only [resolvedFromSource,fresh_identityIndex,fresh_indexedArtifacts]

theorem fresh_resolved (fresh : Fresh disk cache) (sources : List String) : Fresh disk (resolved disk id sources cache).2 := by
  induction sources generalizing cache with
  | nil => exact fresh
  | cons name rest ih => exact ih (fresh_resolvedFromSource id fresh name)

theorem resolved_fresh (fresh : Fresh disk cache) {sources : List String} (distinct : sources.Nodup) :
    (resolved disk id sources cache).1.Nodup ∧
      ∀ match_, match_ ∈ (resolved disk id sources cache).1 ↔ match_.1 ∈ sources ∧ Carries disk id match_.1 match_.2 := by
  refine resolved_exact distinct (fun name _ root there e inside key => ?_)
  rw [fresh e inside root (key ▸ there) (key ▸ rfl)]
  exact hides_build

end

theorem bases_distinct (project : Project) (others : Bool) : (projectArtifactBases caller project others).Nodup :=
  project.distinct.sublist (((List.filter_sublist).map _).cons_cons _)

variable {caller} {s t : State μ} {ref id : String}

theorem sources_cases (ref : String) : (∃ failure, ∀ others, sourcesForProjectRef caller ref others = .error failure) ∨
    (∀ others, sourcesForProjectRef caller ref others = .ok []) ∨
    ∃ project ∈ caller.projects, ∀ others,
      sourcesForProjectRef caller ref others = .ok (projectArtifactBases caller project others) := by
  unfold sourcesForProjectRef
  split
  · exact .inl ⟨_,fun _ => rfl⟩
  · split
    · exact .inl ⟨_,fun _ => rfl⟩
    · split
      · exact .inl ⟨_,fun _ => rfl⟩
      · next project found =>
        have known := List.mem_of_find?_eq_some found
        by_cases refused : project.refused = true
        · exact .inl ⟨_,fun _ => if_pos refused⟩
        grind only

def outcomeOf (caller : Caller) (s : State μ) : Answer → Answer → Outcome μ
  | .found root folder,_ => .artifact root folder (s.metadata root folder) true
  | .conflict,_ | .notFound,.conflict => .error (409,"Artifact identity is duplicated")
  | .notFound,.notFound => .error (404,"Artifact not found")
  | .notFound,.found root folder =>
    if draftReviewAllows caller s root folder then .artifact root folder (s.metadata root folder) false
    else .error (404,"Artifact not found")

theorem outcome_eq {own all : List String} {wanted : String} (ofOwn : sourcesForProjectRef caller ref false = .ok own)
    (ofAll : sourcesForProjectRef caller ref true = .ok all) (parsed : caller.uuid id = some wanted) :
    reviewArtifactForRequest caller s ref id = outcomeOf caller s (answerOf (resolved s.disk wanted own s.cache).1)
      (answerOf (resolved s.disk wanted all (resolved s.disk wanted own s.cache).2).1) := by
  simp only [reviewArtifactForRequest,artifactForRequest,resolveIn,parsed]
  grind [outcomeOf]

theorem answer_same {own own' : List (String × String)} (once : own.Nodup) (once' : own'.Nodup)
    (same : ∀ x, x ∈ own ↔ x ∈ own') : answerOf own = answerOf own' := by
  obtain ⟨found,conflict,missing⟩ := answerOf_cases once
  obtain ⟨found',conflict',missing'⟩ := answerOf_cases once'
  cases answer : answerOf own' with
  | found root folder => simpa only [found,same] using (found' root folder).mp answer
  | conflict => simpa only [conflict,same] using conflict'.mp answer
  | notFound => simpa only [missing,same] using missing'.mp answer

def Confused (caller : Caller) (s : State μ) (own all : List (String × String)) : Prop :=
  (∀ x, x ∉ own) ∧ (∃ a ∈ all, ∃ b ∈ all, a ≠ b) ∧
    ¬∃ a ∈ all, ∃ b ∈ all, a ≠ b ∧ draftReviewAllows caller s a.1 a.2 ∧ draftReviewAllows caller s b.1 b.2

theorem outcome_conflict_iff {answer : Answer} :
    outcomeOf caller s .notFound answer = .error (409,"Artifact identity is duplicated") ↔ answer = .conflict := by
  cases answer <;> grind [outcomeOf]

theorem outcome_private {answer : Answer} (single : answer ≠ .conflict)
    (hidden : ∀ root folder, answer = .found root folder → ¬draftReviewAllows caller s root folder) :
    outcomeOf caller s .notFound answer = .error (404,"Artifact not found") := by
  cases answer <;> grind [outcomeOf]

theorem outcomeOf_same_iff {own own' all all' : List (String × String)} (first : answerOf own = answerOf own')
    (none : (∀ x, x ∉ own) ↔ ∀ x, x ∉ own') (onceOwn : own.Nodup) (once : all.Nodup) (once' : all'.Nodup)
    (mine : ∀ x ∈ own, s.metadata x.1 x.2 = t.metadata x.1 x.2)
    (granted : ∀ x, (x ∈ all ∧ draftReviewAllows caller s x.1 x.2) ↔ (x ∈ all' ∧ draftReviewAllows caller t x.1 x.2))
    (described : ∀ x ∈ all, draftReviewAllows caller s x.1 x.2 → s.metadata x.1 x.2 = t.metadata x.1 x.2) :
    outcomeOf caller s (answerOf own) (answerOf all) = outcomeOf caller t (answerOf own') (answerOf all') ↔
      (Confused caller s own all ↔ Confused caller t own' all') := by
  obtain ⟨mineFound,_,mineMissing⟩ := answerOf_cases onceOwn
  obtain ⟨found,conflict,missing⟩ := answerOf_cases once
  obtain ⟨found',conflict',missing'⟩ := answerOf_cases once'
  rw [← first]
  cases answer : answerOf own with
  | found root folder | conflict => grind only [Confused,outcomeOf]
  | notFound =>
    have empty := mineMissing.mp answer
    have empty' := none.mp empty
    -- Two granted matches are a conflict in both states, whatever else there is.
    by_cases two : ∃ a ∈ all, ∃ b ∈ all, a ≠ b ∧ draftReviewAllows caller s a.1 a.2 ∧ draftReviewAllows caller s b.1 b.2
    · obtain ⟨a,ofA,b,ofB,differ,allowsA,allowsB⟩ := two
      rw [conflict.mpr ⟨a,ofA,b,ofB,differ⟩]
      grind [outcomeOf,Confused]
    · have two' : ¬∃ a ∈ all', ∃ b ∈ all', a ≠ b ∧ draftReviewAllows caller t a.1 a.2 ∧ draftReviewAllows caller t b.1 b.2 := by
        grind
      have confused : Confused caller s own all ↔ answerOf all = .conflict := by
        rw [conflict]; exact ⟨fun c => c.2.1,fun pair => ⟨empty,pair,two⟩⟩
      have confused' : Confused caller t own' all' ↔ answerOf all' = .conflict := by
        rw [conflict']; exact ⟨fun c => c.2.1,fun pair => ⟨empty',pair,two'⟩⟩
      rw [confused,confused']
      by_cases alone : answerOf all = .conflict ∨ answerOf all' = .conflict
      · grind only [outcome_conflict_iff]
      · obtain ⟨single,single'⟩ := not_or.mp alone
        -- What is granted is found in both states; without it both answer as if there were nothing.
        by_cases some : ∃ x ∈ all, draftReviewAllows caller s x.1 x.2
        · obtain ⟨x,ofX,allows⟩ := some
          obtain ⟨ofX',allows'⟩ := (granted x).mp ⟨ofX,allows⟩
          rw [(found x.1 x.2).mpr ⟨ofX,by grind⟩,(found' x.1 x.2).mpr ⟨ofX',by grind⟩]
          simp [outcomeOf,allows,allows',described x ofX allows]
        · rw [outcome_private single (by grind),outcome_private single' (by grind)]
          simp [single,single']

theorem alike_grants (alike : Alike caller s t) {project : Project} (known : project ∈ caller.projects) {root : String}
    (inside : root ∈ projectArtifactBases caller project true) {wanted folder : String} :
    (Carries s.disk wanted root folder ∧ draftReviewAllows caller s root folder) ↔
      (Carries t.disk wanted root folder ∧ draftReviewAllows caller t root folder) := by
  have same := alike.granted project known root inside folder
  constructor
  · rintro ⟨carries,allows⟩
    obtain ⟨holds,grant,_⟩ := same (.inl ⟨⟨_,carries⟩,allows⟩)
    exact ⟨(holds _).mp carries,by simpa only [draftReviewAllows,grant] using allows⟩
  · rintro ⟨carries,allows⟩
    obtain ⟨holds,grant,_⟩ := same (.inr ⟨⟨_,carries⟩,allows⟩)
    exact ⟨(holds _).mpr carries,by simpa only [draftReviewAllows,grant] using allows⟩

theorem disturbed_iff {own all : List String} {wanted : String} (ofOwn : sourcesForProjectRef caller ref false = .ok own)
    (ofAll : sourcesForProjectRef caller ref true = .ok all) (parsed : caller.uuid id = some wanted)
    {mine wide : List (String × String)} (inMine : ∀ x, x ∈ mine ↔ x.1 ∈ own ∧ Carries s.disk wanted x.1 x.2)
    (inWide : ∀ x, x ∈ wide ↔ x.1 ∈ all ∧ Carries s.disk wanted x.1 x.2) :
    Disturbed caller s ref id ↔ Confused caller s mine wide := by
  simp only [Disturbed,ofOwn,ofAll,parsed,Except.ok.injEq,Option.some.injEq,Confused,inMine,inWide]
  constructor
  · rintro ⟨_,_,_,rfl,rfl,rfl,none,⟨a,b,differ,ofA,ofB⟩,two⟩
    exact ⟨fun x inside => none _ inside.1 _ inside.2,⟨a,ofA,b,ofB,differ⟩,
      fun ⟨a,ofA,b,ofB,differ,allowsA,allowsB⟩ => two ⟨a,b,differ,⟨ofA.1,ofA.2,allowsA⟩,ofB.1,ofB.2,allowsB⟩⟩
  · rintro ⟨none,⟨a,ofA,b,ofB,differ⟩,two⟩
    exact ⟨_,_,_,rfl,rfl,rfl,fun root inside folder carries => none (root,folder) ⟨inside,carries⟩,
      ⟨a,b,differ,ofA,ofB⟩,fun ⟨a,b,differ,ofA,ofB⟩ => two ⟨a,⟨ofA.1,ofA.2.1⟩,b,⟨ofB.1,ofB.2.1⟩,differ,ofA.2.2,ofB.2.2⟩⟩

def sampleProject : Project :=
  { id := "p",base := "base",workspaces := [⟨"theirs",some "c"⟩],distinct := by decide }
def sampleCaller : Caller := ⟨some "org",[sampleProject],[],some⟩

def samplePrivate (folders : List (String × Option String)) (distinct : (folders.map Prod.fst).Nodup) : State Unit :=
  { disk := fun name => if name = "theirs" then some ⟨0,folders,distinct⟩ else none
    grant := fun _ _ => none
    metadata := fun _ _ => () }
def sampleNone : State Unit := samplePrivate [] (by decide)
def sampleOne : State Unit := samplePrivate [("a",some "x")] (by decide)
def sampleTwo : State Unit := samplePrivate [("a",some "x"),("b",some "x")] (by decide)

theorem samples_alike (folders others : List (String × Option String)) (distinct : (folders.map Prod.fst).Nodup)
    (distinct' : (others.map Prod.fst).Nodup) :
    Alike sampleCaller (samplePrivate folders distinct) (samplePrivate others distinct') where
  own := by simp [sampleCaller,sampleProject,projectArtifactBases,samplePrivate]
  granted := by simp [Granted,draftReviewAllows,samplePrivate]

def maxJournalRecordBytes : Nat := 64 * 1024

/-- The marker in the journal: what is recorded, and the bytes of the record's text. -/
structure Marker where
  grant : Grant
  size : Nat

/-- `draft_review_grant`: a record that is too large is refused, which reads as absent. -/
def draftReviewGrant (marker : Option Marker) : Option Grant :=
  (marker.filter fun m => m.size ≤ maxJournalRecordBytes && m.grant.scope = "organization").map (·.grant)

def allows (marker : Option Marker) (org : String) : Bool :=
  draftReviewAllows ⟨some org,[],[],some⟩
    (⟨fun _ => none,[],fun _ _ => draftReviewGrant marker,fun _ _ => ()⟩ : State Unit) "" ""

/-- `size` is that of the record's text; `writes` and `removes` say whether the journal does. -/
inductive Call
  | enable (org : String) (size : Nat) (writes : Bool)
  | disable (removes : Bool)

/-- `last` is the organization of the last call that reported success, if that was an enabling. -/
structure Folder where
  marker : Option Marker := none
  last : Option String := none

/-- `enable_draft_review` keeps a record that is there; a failed write or removal changes nothing. -/
def call (s : Folder) : Call → Folder
  | .enable org size writes =>
    if (draftReviewGrant s.marker).isSome then { s with last := some org }
    else if writes then ⟨some ⟨⟨"organization",some org⟩,size⟩,some org⟩
    else s
  | .disable removes => if s.marker.isSome && removes then {} else s

def Follows (s : Folder) : Prop := ∀ org, allows s.marker org = true ↔ s.last = some org

/-- A readable record is one for the organization that enables; a new one can be read back. -/
def Orderly (s : Folder) : Call → Prop
  | .enable org size writes => if (draftReviewGrant s.marker).isSome then s.last = some org
    else writes = true → org ≠ "" ∧ size ≤ maxJournalRecordBytes
  | .disable _ => True

theorem allows_marker (recorded org : String) (size : Nat) :
    allows (some ⟨⟨"organization",some recorded⟩,size⟩) org = true ↔
      org ≠ "" ∧ size ≤ maxJournalRecordBytes ∧ recorded = org := by
  by_cases fits : size ≤ maxJournalRecordBytes <;>
    simp [allows,draftReviewAllows,draftReviewGrant,Option.filter,fits]

/-- There is no record, or the one of the last success, and it can be read. -/
def Sound (s : Folder) : Prop := s = {} ∨ ∃ org size, org ≠ "" ∧ size ≤ maxJournalRecordBytes ∧
  s = ⟨some ⟨⟨"organization",some org⟩,size⟩,some org⟩

theorem follows_of_sound {s : Folder} (sound : Sound s) : Follows s := by
  rcases sound with rfl | ⟨recorded,size,named,fits,rfl⟩
  · simp [Follows,allows,draftReviewAllows,draftReviewGrant]
  · intro org
    rw [allows_marker,Option.some.injEq]
    constructor
    · rintro ⟨_,_,rfl⟩
      rfl
    · rintro rfl; exact ⟨named,fits,rfl⟩

theorem grant_read {org : String} {size : Nat} (fits : size ≤ maxJournalRecordBytes) :
    draftReviewGrant (some ⟨⟨"organization",some org⟩,size⟩) = some ⟨"organization",some org⟩ := by
  simp [draftReviewGrant,fits]

theorem sound_call {s : Folder} (sound : Sound s) (c : Call) (orderly : Orderly s c) : Sound (call s c) := by
  rcases sound with rfl | ⟨recorded,size,named,fits,rfl⟩
  · cases c with
    | enable org size writes =>
      cases writes with
      | true => exact .inr ⟨org,size,(orderly rfl).1,(orderly rfl).2,rfl⟩
      | false => exact .inl rfl
    | disable removes => exact .inl rfl
  · cases c with
    | enable org other writes =>
      simp only [Orderly,call,grant_read fits,Option.isSome_some,if_true] at orderly ⊢
      exact .inr ⟨recorded,size,named,fits,by rw [orderly]⟩
    | disable removes =>
      cases removes with
      | true => exact .inl rfl
      | false => exact .inr ⟨recorded,size,named,fits,rfl⟩

theorem orderly_of_follows {s : Folder} (sound : Sound s) (c : Call) (follows : Follows (call s c)) : Orderly s c := by
  cases c with
  | disable removes => trivial
  | enable org size writes =>
    rcases sound with rfl | ⟨recorded,held,named,fits,rfl⟩
    · rintro rfl
      have reads := (allows_marker org org size).mp ((follows org).mpr rfl)
      exact ⟨reads.1,reads.2.1⟩
    · simp only [Orderly,call,grant_read fits] at follows ⊢
      exact ((follows recorded).mp ((allows_marker ..).mpr ⟨named,fits,rfl⟩)).symm

/-- After every call the folder's draft is open to just the organization of the last enabling that reported success,
    if and only if every enabling finds no record or one for its own organization, and writes one that can be read. -/
theorem grant_follows_iff (calls : List Call) :
    (∀ front, front <+: calls → Follows (reach call {} front)) ↔ Permitted call Orderly {} calls := by
  have from_sound : ∀ s, Sound s →
      ((∀ front, front <+: calls → Follows (reach call s front)) ↔ Permitted call Orderly s calls) := by
    induction calls with
    | nil => exact fun s sound => ⟨fun _ => trivial,fun _ front none => by
        rw [List.prefix_nil.mp none]; exact follows_of_sound sound⟩
    | cons c rest tail =>
      intro s sound
      constructor
      · intro all
        have orderly := orderly_of_follows sound c (all [c] (by simp))
        refine ⟨orderly,(tail _ (sound_call sound c orderly)).mp fun front before => ?_⟩
        exact all (c :: front) (List.cons_prefix_cons.mpr ⟨rfl,before⟩)
      · rintro ⟨orderly,later⟩ front before
        cases front with
        | nil => exact follows_of_sound sound
        | cons first front =>
          obtain ⟨rfl,others⟩ := List.cons_prefix_cons.mp before
          exact (tail _ (sound_call sound first orderly)).mpr later front others
  exact from_sound {} (.inl rfl)

/-- The second enabling reports success and keeps the grant of the first. -/
theorem moved_project_keeps_grant :
    let s := reach call {} [.enable "before" 200 true,.enable "after" 200 true]
    s.last = some "after" ∧ allows s.marker "before" = true ∧ allows s.marker "after" = false := by decide

end Cowork.DraftReview
