import Cowork.Transitions

/-!
The sharing choice that is recorded for an artifact, under overlapping saves of its
owner. A save narrows the record, uploads, and then records its choice, restores what it
narrowed, or does nothing; one that records late can leave a wider choice than what is
live (`late_record_is_wider`).
-/
namespace Cowork.OwnerChoices
open Transitions

inductive AccessMode
  | restricted
  | password
  | «public»
deriving DecidableEq

/-- `_BREADTH` -/
def AccessMode.breadth : AccessMode → Nat
  | .restricted => 0
  | .password => 1
  | .«public» => 2

structure OwnerChoice where
  accessMode : AccessMode
  published : Bool
deriving DecidableEq

/-- `OwnerChoice.narrowest` -/
def OwnerChoice.narrowest (choice other : OwnerChoice) : OwnerChoice where
  accessMode := if other.accessMode.breadth < choice.accessMode.breadth then other.accessMode else choice.accessMode
  published := choice.published && other.published

def NotWider (choice other : OwnerChoice) : Prop :=
  choice.accessMode.breadth ≤ other.accessMode.breadth ∧ (choice.published = true → other.published = true)

instance (choice other : OwnerChoice) : Decidable (NotWider choice other) :=
  inferInstanceAs (Decidable (_ ∧ _))

/-- A row of `artifact_owner_choice`. -/
structure Row where
  choice : OwnerChoice
  stamp : Nat
deriving DecidableEq

structure Narrowing where
  replaced : OwnerChoice
  wrote : OwnerChoice
  stamp : Nat
deriving DecidableEq

inductive Phase
  | uploading (narrowing : Option Narrowing)
  | live
  | refused (narrowing : Option Narrowing)
  | done
deriving DecidableEq

structure Save where
  chosen : OwnerChoice
  phase : Phase

/-- `stamp` is the next stamp, `live` the choice of the upload that went live last, and `writers` the saves that wrote
    the row, the last one first. -/
structure World where
  row : Row
  stamp : Nat
  live : Option OwnerChoice := none
  saves : List Save := []
  writers : List Nat := []

inductive Action
  | narrow (mode : AccessMode)
  | goLive (i : Nat)
  | refuse (i : Nat)
  | record (i : Nat)
  | restore (i : Nat)
  /-- The save ends without another write: its upload failed, or a write did. -/
  | leave (i : Nat)

/-- `_stage_choice` of a save -/
def stageChoice (w : World) (i : Nat) (choice : OwnerChoice) : World :=
  { w with row := ⟨choice,w.stamp⟩,stamp := w.stamp + 1,writers := i :: w.writers }

/-- `narrow_before_save` -/
def narrowBeforeSave (w : World) (chosen : OwnerChoice) : World :=
  let narrowed := w.row.choice.narrowest chosen
  let narrowing := if narrowed = w.row.choice then none else some ⟨w.row.choice,narrowed,w.stamp⟩
  { stageChoice w w.saves.length narrowed with saves := w.saves ++ [⟨chosen,.uploading narrowing⟩] }

/-- `restore_after_refused_save` -/
def restoreAfterRefusedSave (w : World) (i : Nat) : Option Narrowing → World
  | none => w
  | some n => if w.row = ⟨n.wrote,n.stamp⟩ then stageChoice w i n.replaced else w

def World.setPhase (w : World) (i : Nat) (phase : Phase) : World :=
  { w with saves := w.saves.modify i (fun save => { save with phase }) }

def step (w : World) : Action → World
  | .narrow mode => narrowBeforeSave w ⟨mode,true⟩
  | .goLive i => match w.saves[i]? with
    | some ⟨chosen,.uploading _⟩ => { w.setPhase i .live with live := some chosen }
    | _ => w
  | .refuse i => match w.saves[i]? with
    | some ⟨_,.uploading narrowing⟩ => w.setPhase i (.refused narrowing)
    | _ => w
  | .record i => match w.saves[i]? with
    | some ⟨chosen,.live⟩ => (stageChoice w i chosen).setPhase i .done
    | _ => w
  | .restore i => match w.saves[i]? with
    | some ⟨_,.refused narrowing⟩ => (restoreAfterRefusedSave w i narrowing).setPhase i .done
    | _ => w
  | .leave i => w.setPhase i .done

def World.idle (w : World) : Bool := w.saves.all (fun save => save.phase = .done)

def Phase.pending : Phase → Bool
  | .uploading _ => true
  | _ => false

def Phase.narrowing : Phase → Option Narrowing
  | .uploading narrowing | .refused narrowing => narrowing
  | _ => none

def Within (w : World) (choice : OwnerChoice) (but : Option Nat) : Prop :=
  (∀ live ∈ w.live, NotWider choice live) ∧
    ∀ j save, w.saves[j]? = some save → save.phase.pending = true → some j ≠ but → NotWider choice save.chosen

def InOrder (w : World) : Action → Prop
  | .record i => ∀ save, w.saves[i]? = some save → save.phase = .live → Within w save.chosen none
  | _ => True

structure Stamped (w : World) : Prop where
  row : w.row.stamp < w.stamp
  narrowings : ∀ i save n, w.saves[i]? = some save → save.phase.narrowing = some n →
    n.stamp < w.stamp ∧ (n.stamp = w.row.stamp → w.writers.head? = some i)

structure Follows (w : World) : Prop where
  row : Within w w.row.choice none
  narrowings : ∀ i save n, w.saves[i]? = some save → save.phase.narrowing = some n → n.stamp = w.row.stamp →
    Within w n.replaced (some i)

theorem narrowest_notWider (choice other : OwnerChoice) :
    NotWider (choice.narrowest other) choice ∧ NotWider (choice.narrowest other) other := by
  grind -linarith [OwnerChoice.narrowest,NotWider]

theorem notWider_trans {a b c : OwnerChoice} (first : NotWider a b) (second : NotWider b c) : NotWider a c :=
  ⟨Nat.le_trans first.1 second.1,fun published => second.2 (first.2 published)⟩

theorem restore_step (w : World) (i : Nat) : step w (.restore i) = w ∨ step w (.restore i) = w.setPhase i .done ∨
    ∃ save n, w.saves[i]? = some save ∧ save.phase = .refused (some n) ∧ n.stamp = w.row.stamp ∧
      step w (.restore i) = (stageChoice w i n.replaced).setPhase i .done := by
  simp only [step]
  split
  · next chosen narrowing found => cases narrowing <;> grind -linarith [restoreAfterRefusedSave]
  · exact .inl rfl

theorem stamped_step (w : World) (action : Action) (stamped : Stamped w) : Stamped (step w action) := by
  obtain ⟨row,narrowings⟩ := stamped
  cases action <;> constructor <;>
    grind -linarith [step,narrowBeforeSave,stageChoice,World.setPhase,restore_step,Phase.narrowing]

theorem restore_last {w : World} (stamped : Stamped w) {i : Nat} (changed : (step w (.restore i)).row ≠ w.row) :
    w.writers.head? = some i := by grind -linarith [World.setPhase,restore_step,Phase.narrowing,Stamped]

theorem follows_step (w : World) (action : Action) (stamped : Stamped w) (follows : Follows w) (ordered : InOrder w action) :
    Follows (step w action) := by
  obtain ⟨row,narrowings⟩ := follows
  obtain ⟨_,old⟩ := stamped
  cases action with
  | narrow mode =>
    -- What it replaced was not wider than what is live or on its way.
    obtain ⟨below,within⟩ := narrowest_notWider w.row.choice ⟨mode,true⟩
    constructor <;> grind -linarith [step,narrowBeforeSave,stageChoice,Within,notWider_trans,Phase.narrowing,Phase.pending]
  | goLive i | refuse i => constructor <;> grind -linarith [step,World.setPhase,Phase.narrowing,Phase.pending,Within]
  | record i =>
    constructor
    · grind -linarith [step,World.setPhase,stageChoice,Phase.pending,Within,InOrder]
    · grind -linarith [step,World.setPhase,stageChoice,Phase.narrowing]
  | restore i =>
    -- Its stamp says that no save has started since; those before are above what it replaced.
    rcases restore_step w i with same | same | ⟨save,n,found,refused,stamp,same⟩
    · rw [same]; exact ⟨row,narrowings⟩
    · constructor <;> grind -linarith [World.setPhase,Phase.narrowing,Phase.pending,Within]
    · have within := narrowings i save n found (by rw [refused]; rfl) stamp
      constructor <;> grind -linarith [World.setPhase,stageChoice,Phase.narrowing,Phase.pending,Within]
  | leave i => constructor <;> grind -linarith [step,World.setPhase,Phase.narrowing,Phase.pending,Within]

/-- A restore that changes the row finds its own narrowing as the last write; and if no save records a choice wider
    than what is live or may go live, the record at rest is not wider than the last choice that went live. -/
theorem choice_follows_live (recorded : OwnerChoice) (actions : List Action) :
    ∃ w, reach step ⟨⟨recorded,0⟩,1,none,[],[]⟩ actions = w ∧
      (∀ i, (step w (.restore i)).row ≠ w.row → w.writers.head? = some i) ∧
      (Permitted step InOrder ⟨⟨recorded,0⟩,1,none,[],[]⟩ actions → w.idle = true →
        ∀ live ∈ w.live, NotWider w.row.choice live) := by
  have stamped : Stamped ⟨⟨recorded,0⟩,1,none,[],[]⟩ := ⟨Nat.zero_lt_one,by simp⟩
  have follows : Follows ⟨⟨recorded,0⟩,1,none,[],[]⟩ := ⟨by simp [Within],by simp⟩
  refine ⟨_,rfl,fun i => restore_last (always_reach stamped_step stamped actions),fun permitted _ => ?_⟩
  have both := @invariant_reach _ _ _ (fun w => Stamped w ∧ Follows w) _
    (fun w action inv ordered => ⟨stamped_step w action inv.1,follows_step w action inv.1 inv.2 ordered⟩)
    _ ⟨stamped,follows⟩ _ permitted
  exact both.2.row.1

def sampleSaves : List Action := [.narrow .restricted,.refuse 0,.restore 0,.narrow .password,.goLive 1,.record 1]

/-- The first save is overtaken: its upload goes live last, and the other's choice is recorded last. -/
def sampleOvertaken : List Action :=
  [.narrow .restricted,.narrow .«public»,.goLive 1,.goLive 0,.record 0,.record 1]

theorem choice_follows_live_sample : Permitted step InOrder ⟨⟨⟨.«public»,true⟩,0⟩,1,none,[],[]⟩ sampleSaves ∧
    (reach step ⟨⟨⟨.«public»,true⟩,0⟩,1,none,[],[]⟩ sampleSaves).idle = true ∧
    NotWider (reach step ⟨⟨⟨.«public»,true⟩,0⟩,1,none,[],[]⟩ sampleSaves).row.choice ⟨.password,true⟩ := by
  have permitted : Permitted step InOrder ⟨⟨⟨.«public»,true⟩,0⟩,1,none,[],[]⟩ sampleSaves := by
    refine ⟨trivial,trivial,trivial,trivial,trivial,?_,trivial⟩
    rintro _ ⟨⟩ _
    refine ⟨by rintro _ ⟨⟩; decide,fun j save found pending _ => ?_⟩
    rcases j with _ | _ | j
    · cases found; cases pending
    · cases found; cases pending
    · cases found
  obtain ⟨_,rfl,_,follows⟩ := choice_follows_live ⟨.«public»,true⟩ sampleSaves
  exact ⟨permitted,by decide,follows permitted (by decide) _ rfl⟩

theorem late_record_is_wider : ∃ w, reach step ⟨⟨⟨.«public»,true⟩,0⟩,1,none,[],[]⟩ sampleOvertaken = w ∧ w.idle = true ∧
    w.live = some ⟨.restricted,true⟩ ∧ w.row.choice = ⟨.«public»,true⟩ ∧ ¬NotWider w.row.choice ⟨.restricted,true⟩ :=
  ⟨_,rfl,by decide,by decide,by decide,by decide⟩

end Cowork.OwnerChoices
