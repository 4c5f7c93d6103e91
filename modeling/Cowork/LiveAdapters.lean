import Cowork.Transitions

/-!
`LiveAdapterRegistry` and the configuration endpoints on one event loop: a build reads
the credentials, waits for the factory and writes the cache without looking again
(`old_build_stays`).
-/

namespace Cowork.LiveAdapters

open Transitions List

/-- `(channel_type, org_id)`; no organization is the local installation. -/
structure Key where
  channelType : String
  orgId : Option String
  deriving DecidableEq

variable {Cred : Type}

/-- Stored credentials, those each cached adapter was built from, the waiting builds with those they read, and the
    setups that wait for their webhook. -/
structure World (Cred : Type) where
  stored : Key → Option Cred
  cache : Key → Option (Option Cred)
  builds : List (Key × Option Cred)
  setups : List Key

inductive Outcome
  | adapter
  | nothing
  | raises
  deriving DecidableEq

/-- A call from one wait to the next; a save or a setup carries the credentials stored after it. A setup that stores
    nothing is a `reload` once its webhook is set, and a teardown is a `remove`. -/
inductive Action (Cred : Type)
  | save (key : Key) (creds : Cred)
  | setup (key : Key) (creds : Cred)
  | registered (setup : Nat) (ok : Bool)
  | delete (key : Key)
  | remove (key : Key)
  | reload (key : Key)
  | getOrRefresh (key : Key)
  | finish (build : Nat) (outcome : Outcome)

def World.store (w : World Cred) (key : Key) (creds : Option Cred) : World Cred :=
  { w with stored := fun k => if k = key then creds else w.stored k }

def World.put (w : World Cred) (key : Key) (adapter : Option (Option Cred)) : World Cred :=
  { w with cache := fun k => if k = key then adapter else w.cache k }

/-- `refresh` up to the factory. -/
def World.refresh (known : String → Bool) (w : World Cred) (key : Key) : World Cred :=
  if known key.channelType then { w with builds := w.builds ++ [(key,w.stored key)] } else w.put key none

/-- The endpoints refuse an unknown channel and a deletion without stored credentials. -/
def step (known : String → Bool) (w : World Cred) : Action Cred → World Cred
  | .save key creds => if known key.channelType then (w.store key (some creds)).refresh known key else w
  | .setup key creds =>
    if known key.channelType then { w.store key (some creds) with setups := w.setups ++ [key] } else w
  | .registered setup ok =>
    match w.setups[setup]? with
    | none => w
    | some key =>
      -- `setWebhook` refused: `_setup` raises and the adapter stays.
      let rest := { w with setups := w.setups.eraseIdx setup }
      if ok then rest.refresh known key else rest
  | .remove key => w.put key none
  | .delete key =>
    if known key.channelType && (w.stored key).isSome then (w.store key none).put key none else w
  | .reload key => if known key.channelType then w.refresh known key else w
  | .getOrRefresh key => if (w.cache key).isSome then w else w.refresh known key
  | .finish build outcome =>
    match w.builds[build]? with
    | none => w
    | some (key,creds) =>
      { w with builds := w.builds.eraseIdx build }.put key (if outcome = Outcome.adapter then some creds else none)

/-- The key an action is about. -/
def Action.key (w : World Cred) : Action Cred → Option Key
  | .save key _ | .setup key _ | .delete key | .remove key | .reload key | .getOrRefresh key => some key
  | .registered index _ => w.setups[index]?
  | .finish build _ => w.builds[build]?.map Prod.fst

/-- No adapter, or one built from the credentials stored now. -/
def Matches (w : World Cred) (key : Key) : Prop :=
  w.cache key = none ∨ ∃ creds, w.stored key = some creds ∧ w.cache key = some (some creds)

/-- A factory that returns an adapter does so while the credentials it was given are the stored ones, and a setup whose
    webhook is refused leaves no adapter of older ones. -/
def Current (w : World Cred) : Action Cred → Prop
  | .finish build .adapter => ∀ entry ∈ w.builds[build]?, entry.2.isSome ∧ w.stored entry.1 = entry.2
  | .registered setup false => ∀ key ∈ w.setups[setup]?, Matches w key
  | _ => True

def Awaited (w : World Cred) (key : Key) : Prop :=
  Matches w key ∨ key ∈ w.setups ∨ ∃ creds, (key,creds) ∈ w.builds

theorem mem_erased {α : Type} {entries : List α} {entry : α} {i : Nat} (member : entry ∈ entries)
    (other : entries[i]? ≠ some entry) : entry ∈ entries.eraseIdx i := by
  obtain ⟨j,found⟩ := mem_iff_getElem?.mp member
  exact mem_eraseIdx_iff_getElem?.mpr ⟨j,fun same => other (same ▸ found),found⟩

variable {known : String → Bool}

theorem refresh_other {w : World Cred} {key other : Key} (distinct : other ≠ key) :
    (w.refresh known key).cache other = w.cache other := by
  unfold World.refresh
  split
  · rfl
  · simp [World.put,distinct]

theorem step_other (known : String → Bool) (w : World Cred) (action : Action Cred) {key : Key}
    (other : action.key w ≠ some key) : (step known w action).cache key = w.cache key := by
  have distinct {k : Key} (h : some k ≠ some key) : key ≠ k := fun same => h (congrArg some same.symm)
  cases action with
  | save k creds | reload k | getOrRefresh k =>
    have frame := fun v : World Cred => @refresh_other _ known v _ _ (distinct other)
    simp only [step]
    split <;> simp [frame,World.store]
  | setup k creds =>
    simp only [step]
    split <;> rfl
  | registered setup ok =>
    simp only [step]
    cases there : w.setups[setup]? with
    | none => rfl
    | some k =>
      have frame := fun v : World Cred => @refresh_other _ known v _ _ (distinct (by simpa [Action.key,there] using other))
      cases ok <;> simp [frame]
  | remove k => simp [step,World.put,distinct other]
  | delete k =>
    simp only [step]
    split
    · simp [World.put,World.store,distinct other]
    · rfl
  | finish build outcome =>
    simp only [step]
    cases there : w.builds[build]? with
    | none => rfl
    | some entry => simp [World.put,distinct (by simpa [Action.key,there] using other)]

theorem awaited_refresh {w : World Cred} {key : Key} (awaited : ∀ k, k ≠ key → Awaited w k)
    (k : Key) : Awaited (w.refresh known key) k := by
  unfold World.refresh
  by_cases same : k = key
  · subst same
    split
    · exact .inr (.inr ⟨_,mem_append_right _ (mem_singleton_self _)⟩)
    · exact .inl (.inl (by simp [World.put]))
  · split
    · exact (awaited k same).imp id (.imp id fun ⟨creds,there⟩ => ⟨creds,mem_append_left _ there⟩)
    · exact (awaited k same).imp (by simp [Matches,World.put,same]) id

theorem awaited_finish {w : World Cred} {build : Nat} {outcome : Outcome}
    (awaited : ∀ k, Awaited w k) (current : Current w (.finish build outcome)) (k : Key) :
    Awaited (step known w (.finish build outcome)) k := by
  simp only [step]
  cases there : w.builds[build]? with
  | none => exact awaited k
  | some entry =>
    by_cases same : k = entry.1
    · refine .inl ?_
      cases outcome with
      | adapter =>
        obtain ⟨loaded,stored⟩ := current entry there
        obtain ⟨creds,is⟩ := Option.isSome_iff_exists.mp loaded
        exact .inr ⟨creds,by simp [World.put,same,stored,is],by simp [World.put,same,is]⟩
      | nothing | raises => exact .inl (by simp [World.put,same])
    · refine (awaited k).imp (by simp [Matches,World.put,same]) (.imp id fun ⟨creds,member⟩ => ⟨creds,?_⟩)
      -- The build that ended is of another key, so the one awaited is still there.
      exact mem_erased member fun is => same (congrArg Prod.fst (Option.some.inj (is.symm.trans there)))

theorem awaited_registered {w : World Cred} {setup : Nat} {ok : Bool}
    (awaited : ∀ k, Awaited w k) (current : Current w (.registered setup ok)) (k : Key) :
    Awaited (step known w (.registered setup ok)) k := by
  simp only [step]
  cases there : w.setups[setup]? with
  | none => exact awaited k
  | some key =>
    have others (k : Key) (other : k ≠ key) : Awaited { w with setups := w.setups.eraseIdx setup } k :=
      (awaited k).imp id (.imp (fun member => mem_erased member fun is => other (Option.some.inj (is.symm.trans there))) id)
    cases ok with
    | true => exact awaited_refresh others k
    | false =>
      by_cases same : k = key
      · exact .inl (same ▸ current key there)
      · exact others k same

theorem awaited_step (known : String → Bool) {w : World Cred} {action : Action Cred} (awaited : ∀ k, Awaited w k)
    (current : Current w action) : ∀ k, Awaited (step known w action) k := by
  cases action with
  | save key creds =>
    simp only [step]
    split
    · refine awaited_refresh fun k other => ?_
      simpa [Awaited,Matches,World.store,other] using awaited k
    · exact awaited
  | setup key creds =>
    simp only [step]
    split
    · intro k
      by_cases same : k = key
      · exact .inr (.inl (by simp [same]))
      · refine (awaited k).imp ?_ (.imp (mem_append_left _) id)
        simp [Matches,World.store,same]
    · exact awaited
  | registered setup ok => exact awaited_registered awaited current
  | remove key =>
    intro k
    by_cases same : k = key
    · exact .inl (.inl (by simp [step,World.put,same]))
    · simpa [Awaited,Matches,step,World.put,same] using awaited k
  | delete key =>
    simp only [step]
    split
    · intro k
      by_cases same : k = key
      · exact .inl (.inl (by simp [World.put,same]))
      · simpa [Awaited,Matches,World.put,World.store,same] using awaited k
    · exact awaited
  | reload key =>
    simp only [step]
    split
    · exact awaited_refresh fun k _ => awaited k
    · exact awaited
  | getOrRefresh key =>
    simp only [step]
    split
    · exact awaited
    · exact awaited_refresh fun k _ => awaited k
  | finish build outcome => exact awaited_finish awaited current

/-- Where factories return adapters only for the credentials stored at that moment and no refused webhook leaves an
    older one, every adapter matches the stored
    credentials once all calls have ended; and in any state an action touches the adapter of its own key only. -/
theorem adapters_match (known : String → Bool) (stored : Key → Option Cred) (actions : List (Action Cred))
    (current : Permitted (step known) Current ⟨stored,fun _ => none,[],[]⟩ actions) :
    ((reach (step known) ⟨stored,fun _ => none,[],[]⟩ actions).builds = [] →
      (reach (step known) ⟨stored,fun _ => none,[],[]⟩ actions).setups = [] →
      ∀ key, Matches (reach (step known) ⟨stored,fun _ => none,[],[]⟩ actions) key) ∧
      ∀ (w : World Cred) (action : Action Cred) (key : Key),
        action.key w ≠ some key → (step known w action).cache key = w.cache key := by
  refine ⟨fun ended settled key => ?_,fun w action key other => step_other known w action other⟩
  have awaited := @invariant_reach _ _ (step known) (fun w => ∀ k, Awaited w k) _
    (fun _ _ inv allowed => awaited_step known inv allowed) _ (fun _ => .inl (.inl rfl)) _ current
  rcases awaited key with right | pending | ⟨creds,pending⟩
  · exact right
  · rw [settled] at pending; cases pending
  · rw [ended] at pending; cases pending

theorem saved_adapter_matches : Matches (reach (step fun _ => true) (⟨fun _ => none,fun _ => none,[],[]⟩ : World String)
    [.save ⟨"slack",none⟩ "token",.finish 0 .adapter]) ⟨"slack",none⟩ :=
  (adapters_match (fun _ => true) _ [.save ⟨"slack",none⟩ "token",.finish 0 .adapter]
    (by simp [Permitted,Current,step,World.refresh,World.store])).1 rfl rfl _

theorem old_build_stays : ∃ actions : List (Action String),
    let last := reach (step fun _ => true) ⟨fun _ => none,fun _ => none,[],[]⟩ actions
    last.builds = [] ∧ last.setups = [] ∧ last.stored ⟨"slack",none⟩ = some "new" ∧
      last.cache ⟨"slack",none⟩ = some (some "old") :=
  ⟨[.save ⟨"slack",none⟩ "old",.save ⟨"slack",none⟩ "new",.finish 1 .adapter,.finish 0 .adapter],rfl,rfl,rfl,rfl⟩

end Cowork.LiveAdapters
