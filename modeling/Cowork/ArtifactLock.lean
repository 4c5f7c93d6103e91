import Cowork.Transitions
import Mathlib.Logic.Function.Basic
import Mathlib.Algebra.Order.Ring.Int

/-!
The lock of an artifact: a file that is created exclusively, holds a token, and may be
broken once it is older than the limit, one file operation at a time. Of two processes
that found a stale lock, the second may remove the lock that the first has taken
(`stale_lock_broken_twice`).
-/
namespace Cowork.ArtifactLock
open Transitions List

/-- The file at the lock's name. Files are told apart by `inode`, whatever their name. -/
structure LockFile where
  inode : Nat
  mtime : Int

/-- A write to the file `own` is seen at the name if that is the file there. -/
def LockFile.touched (file : LockFile) (own : Nat) (now : Int) : LockFile :=
  if file.inode = own then ⟨own,now⟩ else file

/-- The next file operation of a process, with the file that it created and when. One inside leaves by opening the
    lock, reading it and unlinking the name. -/
inductive Phase where
  | creating
  | looking
  | breaking (seen : Nat)
  | writing (own : Nat) (since : Int)
  | inside (own : Nat) (since : Int)
  | opening (own : Nat) (since : Int)
  | reading (own : Nat) (since : Int) (opened : Nat)
  | unlinking (own : Nat) (since : Int)
  | finished
deriving DecidableEq

def Phase.holds : Phase → Option (Nat × Int)
  | .writing own since | .inside own since | .opening own since | .reading own since _ | .unlinking own since =>
    some (own,since)
  | .creating | .looking | .breaking _ | .finished => none

def Phase.breaks : Phase → Option Nat
  | .breaking seen => some seen
  | _ => none

def Phase.isInside : Phase → Bool
  | .inside _ _ => true
  | _ => false

/-- `tokens` is what each file holds, also without a name: the process with that token. `inodes` counts the files. -/
structure World where
  file : Option LockFile
  tokens : Nat → Option Nat
  inodes : Nat
  now : Int
  processes : List Phase

def staleLimit : Int := 30

/-- `expired` says that the deadline of a waiting process has passed. -/
inductive Action where
  | arrive
  | op (p : Nat) (expired : Bool)
  | crash (p : Nat)
  | tick (seconds : Nat)

namespace World

def setPhase (world : World) (p : Nat) (phase : Phase) : World :=
  { world with processes := world.processes.set p phase }

/-- After a lock that is not broken: a `TimeoutError`, or another try. -/
def waits (world : World) (p : Nat) (expired : Bool) : World :=
  world.setPhase p (if expired then .finished else .creating)

/-- The process `p` does its next file operation. -/
def operate (world : World) (p : Nat) (expired : Bool) : Phase → World
  | .creating =>
    match world.file with
    | some _ => world.setPhase p .looking
    | none =>
      { world with file := some ⟨world.inodes,world.now⟩, inodes := world.inodes + 1 }.setPhase p
        (.writing world.inodes world.now)
  | .looking =>
    match world.file with
    | some file =>
      if staleLimit < world.now - file.mtime then world.setPhase p (.breaking file.inode) else world.waits p expired
    | none => world.waits p expired
  | .breaking _ =>
    match world.file with
    | some _ => { world with file := none }.setPhase p .creating
    | none => world.waits p expired
  | .writing own since =>
    { world with
      tokens := Function.update world.tokens own (some p)
      file := world.file.map fun (file : LockFile) => file.touched own world.now }.setPhase p
      (.inside own since)
  | .inside own since => world.setPhase p (.opening own since)
  | .opening own since =>
    match world.file with
    | some file => world.setPhase p (.reading own since file.inode)
    | none => world.setPhase p .finished
  | .reading own since opened =>
    world.setPhase p (if world.tokens opened = some p then .unlinking own since else .finished)
  | .unlinking _ _ => { world with file := none }.setPhase p .finished
  | .finished => world

end World

def step (world : World) : Action → World
  | .arrive => { world with processes := world.processes ++ [.creating] }
  | .op p expired =>
    match world.processes[p]? with
    | some phase => world.operate p expired phase
    | none => world
  | .crash p => world.setPhase p .finished
  | .tick seconds => { world with now := world.now + seconds }

def folder (now : Int) (left : Option Int) : World :=
  ⟨left.map fun mtime => ⟨0,mtime⟩,fun _ => none,1,now,[]⟩

def Timely (world : World) : Action → Prop
  | .tick seconds => ∀ phase ∈ world.processes, ∀ lock ∈ phase.holds, world.now + seconds ≤ lock.2 + staleLimit
  | .arrive | .op _ _ | .crash _ => True

def Careful (world : World) : Action → Prop
  | .op p _ => ∀ phase ∈ world.processes[p]?, ∀ seen ∈ phase.breaks, ∀ file ∈ world.file, file.inode = seen
  | .arrive | .crash _ | .tick _ => True

instance (world : World) (action : Action) : Decidable (Timely world action) := by
  cases action <;> unfold Timely <;> infer_instance

instance (world : World) (action : Action) : Decidable (Careful world action) := by
  cases action <;> unfold Careful <;> infer_instance

def Named (file : Option LockFile) (lock : Nat × Int) : Prop :=
  ∃ there, file = some there ∧ there.inode = lock.1 ∧ lock.2 ≤ there.mtime

/-- A process's lock is the file at the name and not stale, the only one, and none is about to remove it as stale. -/
structure Exclusive (world : World) : Prop where
  named : ∀ phase ∈ world.processes, ∀ lock, phase.holds = some lock → Named world.file lock
  alone : ∀ {p q : Nat} {phase other : Phase} {lock lock' : Nat × Int}, world.processes[p]? = some phase →
    world.processes[q]? = some other → phase.holds = some lock → other.holds = some lock' → p = q
  timely : ∀ phase ∈ world.processes, ∀ lock, phase.holds = some lock →
    lock.2 ≤ world.now ∧ world.now ≤ lock.2 + staleLimit
  unseen : ∀ phase ∈ world.processes, ∀ seen, phase.breaks = some seen → seen < world.inodes ∧
    ∀ other ∈ world.processes, ∀ lock, other.holds = some lock → lock.1 ≠ seen
  fresh : ∀ file, world.file = some file → file.inode < world.inodes

section
variable {world world' : World} {p : Nat} {phase next : Phase}

section
variable (exclusive : Exclusive world)
include exclusive

section
variable (there : world.processes[p]? = some phase)
include there

theorem Exclusive.goesOn
    (processes : world'.processes = world.processes.set p next) (now : world'.now = world.now)
    (inodes : world'.inodes = world.inodes) (keeps : ∀ lock, next.holds = some lock → phase.holds = some lock)
    (named : ∀ q other lock, q ≠ p ∨ next.holds = some lock → world.processes[q]? = some other →
      other.holds = some lock → Named world.file lock → Named world'.file lock)
    (breaks : ∀ seen, next.breaks = some seen → seen < world.inodes ∧
      ∀ other ∈ world.processes, ∀ lock, other.holds = some lock → lock.1 ≠ seen)
    (fresh : ∀ file, world'.file = some file → file.inode < world.inodes) : Exclusive world' := by
  -- who has a lock afterwards had it before, in the same place
  have before : ∀ {q : Nat} {other : Phase} {lock : Nat × Int}, (world.processes.set p next)[q]? = some other →
      other.holds = some lock → ∃ old, world.processes[q]? = some old ∧ old.holds = some lock ∧
        (q ≠ p ∨ next.holds = some lock) := by
    intro q other lock found holds
    obtain ⟨here,is⟩ | ⟨apart,old⟩ := set_found found
    · subst here is
      exact ⟨phase,there,keeps lock holds,.inr holds⟩
    · exact ⟨other,old,holds,.inl apart⟩
  have had : ∀ {other : Phase} {lock : Nat × Int}, other ∈ world.processes.set p next → other.holds = some lock →
      ∃ old ∈ world.processes, old.holds = some lock := by
    intro other lock held holds
    obtain ⟨q,found⟩ := List.getElem?_of_mem held
    obtain ⟨old,found',holds',_⟩ := before found holds
    exact ⟨old,mem_of_getElem? found',holds'⟩
  refine ⟨?_,?_,?_,?_,?_⟩
  · grind only [List.getElem?_of_mem,exclusive.named]
  · rw [processes]
    intro q r first second lock lock' found found' holds holds'
    obtain ⟨old,foundOld,holdsOld,_⟩ := before found holds
    obtain ⟨old',foundOld',holdsOld',_⟩ := before found' holds'
    exact exclusive.alone foundOld foundOld' holdsOld holdsOld'
  all_goals grind only [mem_or_eq_of_mem_set,cases Exclusive]

theorem Exclusive.turns
    (keeps : ∀ lock, next.holds = some lock → phase.holds = some lock) (breaks : next.breaks = none) :
    Exclusive (world.setPhase p next) := by
  refine exclusive.goesOn there rfl rfl rfl keeps (fun _ _ _ _ _ _ named => named) ?_ exclusive.fresh
  intro seen isSeen
  rw [breaks] at isSeen
  cases isSeen

theorem Exclusive.waits (expired : Bool) :
    Exclusive (world.waits p expired) := by
  refine exclusive.turns there ?_ ?_
  · intro lock holds
    cases expired <;> cases holds
  · cases expired <;> rfl

end

theorem Exclusive.creates (absent : world.file = none) :
    Exclusive ({ world with
      file := some ⟨world.inodes,world.now⟩, inodes := world.inodes + 1 }.setPhase p
        (.writing world.inodes world.now)) := by
  have nobody : ∀ other ∈ world.processes, ∀ lock, other.holds ≠ some lock := by
    intro other held lock holds
    obtain ⟨file,is,_⟩ := exclusive.named other held lock holds
    rw [absent] at is; cases is
  have only : ∀ {q : Nat} {other : Phase} {lock : Nat × Int},
      (world.processes.set p (.writing world.inodes world.now))[q]? = some other → other.holds = some lock →
      q = p ∧ lock = (world.inodes,world.now) := by
    intro q other lock found holds
    obtain ⟨here,is⟩ | ⟨_,old⟩ := set_found found
    · rw [is] at holds
      exact ⟨here,(Option.some.inj holds).symm⟩
    · exact absurd holds (nobody other (mem_of_getElem? old) lock)
  have lock_ : ∀ other ∈ world.processes.set p (.writing world.inodes world.now), ∀ lock, other.holds = some lock →
      lock = (world.inodes,world.now) := by
    intro other held lock holds
    obtain ⟨q,found⟩ := List.getElem?_of_mem held
    exact (only found holds).2
  refine ⟨?_,?_,?_,?_,?_⟩
  · grind only [Named,World.setPhase]
  · intro q r first second lock lock' found found' holds holds'
    rw [(only found holds).1,(only found' holds').1]
  · intro other held lock holds
    rw [lock_ other held lock holds]
    simp only [World.setPhase,staleLimit]
    omega
  · intro other held seen isSeen
    obtain old | rfl := mem_or_eq_of_mem_set held
    all_goals grind only [cases Exclusive,World.setPhase,Phase.breaks]
  · intro file is
    cases is; exact Nat.lt_succ_self _

theorem Exclusive.unlinks (there : world.processes[p]? = some phase)
    (gone : next.holds = none) (breaks : next.breaks = none)
    (free : ∀ q other lock, q ≠ p → world.processes[q]? = some other → other.holds ≠ some lock) :
    Exclusive ({ world with file := none }.setPhase p next) := by
  refine exclusive.goesOn there rfl rfl rfl ?_ ?_ ?_ ?_
  · intro lock holds
    rw [gone] at holds; cases holds
  all_goals grind only [World.setPhase]

theorem exclusive_operate (there : world.processes[p]? = some phase) (expired : Bool)
    (careful : ∀ seen ∈ phase.breaks, ∀ file ∈ world.file, file.inode = seen) :
    Exclusive (world.operate p expired phase) := by
  have member := mem_of_getElem? there
  cases phase with
  | creating =>
    simp only [World.operate]
    cases file : world.file with
    | none => exact exclusive.creates file
    | some old => exact exclusive.turns there (fun lock holds => by cases holds) rfl
  | looking =>
    simp only [World.operate]
    cases file : world.file with
    | none => exact exclusive.waits there expired
    | some old =>
      dsimp only
      split
      · refine exclusive.goesOn there rfl rfl rfl (fun lock holds => by cases holds)
          (fun _ _ _ _ _ _ named => named) ?_ exclusive.fresh
        intro seen isSeen
        cases isSeen
        refine ⟨exclusive.fresh old file,?_⟩
        -- a lock that somebody has is not stale
        intro holder held lock holds same
        obtain ⟨named,is,_,since⟩ := exclusive.named holder held lock holds
        cases is.symm.trans file
        have within := (exclusive.timely holder held lock holds).2
        omega
      · exact exclusive.waits there expired
  | breaking seen =>
    simp only [World.operate]
    cases file : world.file with
    | none => exact exclusive.waits there expired
    | some old =>
      refine exclusive.unlinks there rfl rfl ?_
      intro q other lock _ found holds
      have held := mem_of_getElem? found
      obtain ⟨there',is,own,_⟩ := exclusive.named other held lock holds
      have same : there'.inode = seen := careful seen rfl there' is
      exact (exclusive.unseen _ member seen rfl).2 other held lock holds (own.symm.trans same)
  | writing own since =>
    refine exclusive.goesOn there rfl rfl rfl (fun lock holds => holds) ?_ (fun seen isSeen => by cases isSeen) ?_
    · intro q other lock _ found holds named
      obtain ⟨file,is,same,since'⟩ := named
      have begun := (exclusive.timely other (mem_of_getElem? found) lock holds).1
      refine ⟨file.touched own world.now,by simp [World.operate,World.setPhase,is],?_⟩
      unfold LockFile.touched
      split
      · rename_i here
        exact ⟨here.symm.trans same,begun⟩
      · exact ⟨same,since'⟩
    · intro file is
      obtain ⟨old,present,rfl⟩ := Option.map_eq_some_iff.mp is
      have bound := exclusive.fresh old present
      unfold LockFile.touched
      split
      · rename_i here
        exact here ▸ bound
      · exact bound
  | inside own since => exact exclusive.turns there (fun lock holds => holds) rfl
  | opening own since =>
    simp only [World.operate]
    cases file : world.file with
    | none => exact exclusive.turns there (fun lock holds => by cases holds) rfl
    | some old => exact exclusive.turns there (fun lock holds => holds) rfl
  | reading own since opened =>
    simp only [World.operate]
    split
    · exact exclusive.turns there (fun lock holds => holds) rfl
    · exact exclusive.turns there (fun lock holds => by cases holds) rfl
  | unlinking own since =>
    refine exclusive.unlinks there rfl rfl ?_
    intro q other lock apart found holds; exact apart (exclusive.alone found there holds rfl)
  | finished => exact exclusive

end

theorem exclusive_step {action : Action} (exclusive : Exclusive world) (timely : Timely world action)
    (careful : Careful world action) : Exclusive (step world action) := by
  cases action with
  | arrive =>
    have old : ∀ {q : Nat} {other : Phase} {lock : Nat × Int}, (world.processes ++ [.creating])[q]? = some other →
        other.holds = some lock → world.processes[q]? = some other := by
      intro q other lock found holds
      obtain before | ⟨_,is⟩ := append_found found
      · exact before
      · rw [is] at holds; cases holds
    have held : ∀ {other : Phase} {lock : Nat × Int}, other ∈ world.processes ++ [.creating] →
        other.holds = some lock → other ∈ world.processes := by
      intro other lock member holds
      obtain ⟨q,found⟩ := List.getElem?_of_mem member
      exact mem_of_getElem? (old found holds)
    refine ⟨?_,?_,?_,?_,exclusive.fresh⟩
    · exact fun other member lock holds => exclusive.named other (held member holds) lock holds
    · grind only [cases Exclusive,step]
    · exact fun other member lock holds => exclusive.timely other (held member holds) lock holds
    grind only [mem_append,mem_singleton,cases Exclusive,step,Phase.breaks]
  | op p expired => grind [step,exclusive_operate,Careful]
  | crash p =>
    simp only [step]
    cases there : world.processes[p]? with
    | none =>
      have same : world.setPhase p .finished = world := by
        rw [World.setPhase,set_eq_of_length_le (List.getElem?_eq_none_iff.mp there)]
      rw [same]; exact exclusive
    | some phase => exact exclusive.turns there (fun lock holds => by cases holds) rfl
  | tick seconds =>
    refine ⟨exclusive.named,exclusive.alone,?_,exclusive.unseen,exclusive.fresh⟩
    intro phase member lock holds
    have begun := (exclusive.timely phase member lock holds).1
    have within := timely phase member lock holds
    simp only [step]
    omega

theorem folder_exclusive (now : Int) (left : Option Int) : Exclusive (folder now left) := by
  refine ⟨?_,?_,?_,?_,?_⟩
  · exact fun _ never => absurd never not_mem_nil
  · intro p q phase other lock lock' never
    cases never
  all_goals grind only [not_mem_nil,Option.map_eq_some_iff,folder]

end

/-- Whatever lock was left in the folder: as long as live holders are done within the limit and a stale lock is
    removed only while it is the file that was looked at, two processes are never inside together. -/
theorem artifact_lock_excludes (now : Int) (left : Option Int) (actions : List Action)
    (timely : Permitted step Timely (folder now left) actions)
    (careful : Permitted step Careful (folder now left) actions) :
    let world := reach step (folder now left) actions
    ∀ (p q : Nat) (phase other : Phase), world.processes[p]? = some phase → world.processes[q]? = some other →
      phase.isInside = true → other.isInside = true → p = q := by
  intro world p q phase other found found' inside inside'
  have exclusive : Exclusive world := invariant_reach (fun _ _ exclusive both => exclusive_step exclusive both.1 both.2)
    (folder_exclusive now left) (permitted_and timely careful)
  have holds : ∀ {phase : Phase}, phase.isInside = true → ∃ lock, phase.holds = some lock := by
    intro phase is
    cases phase with
    | inside own since => exact ⟨(own,since),rfl⟩
    | _ => cases is
  obtain ⟨lock,held⟩ := holds inside
  obtain ⟨lock',held'⟩ := holds inside'
  exact exclusive.alone found found' held held'

/-- A process breaks the lock that was left, is inside and leaves; another one waits for it. -/
def recovered : List Action :=
  [.arrive,.arrive,.op 0 false,.op 0 false,.op 0 false,.op 0 false,.op 1 false,.op 0 false,.op 1 false,.tick 2,
    .op 0 false,.op 0 false,.op 0 false,.op 0 false,.op 1 false,.op 1 false]

theorem recovered_excludes :
    Permitted step Timely (folder 100 (some 0)) recovered ∧ Permitted step Careful (folder 100 (some 0)) recovered ∧
    (reach step (folder 100 (some 0)) recovered).processes = [.finished,.inside 2 102] ∧
    ∀ (p q : Nat) (phase other : Phase), (reach step (folder 100 (some 0)) recovered).processes[p]? = some phase →
      (reach step (folder 100 (some 0)) recovered).processes[q]? = some other →
      phase.isInside = true → other.isInside = true → p = q := by
  have timely : Permitted step Timely (folder 100 (some 0)) recovered := by decide +kernel
  have careful : Permitted step Careful (folder 100 (some 0)) recovered := by decide +kernel
  exact ⟨timely,careful,by decide +kernel,artifact_lock_excludes 100 (some 0) recovered timely careful⟩

/-- Both find the lock stale. The first removes it and is inside with its own; the second then removes that one. -/
def brokenTwice : List Action :=
  [.arrive,.arrive,.op 0 false,.op 0 false,.op 1 false,.op 1 false,.op 0 false,.op 0 false,.op 0 false,.op 1 false,
    .op 1 false,.op 1 false]

/-- Both are inside at one moment, a hundred seconds after the lock was left and with no time passing. -/
theorem stale_lock_broken_twice :
    Permitted step Timely (folder 100 (some 0)) brokenTwice ∧
    (reach step (folder 100 (some 0)) brokenTwice).processes = [.inside 1 100,.inside 2 100] := by decide +kernel

end Cowork.ArtifactLock
