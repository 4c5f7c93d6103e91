import Mathlib.Data.List.Perm.Basic
import Cowork.Contracts
import Cowork.Transitions

/-!
The locks of channel events (`_KeyedLocks` of `channels/runtime.py`), made for a key on
demand and dropped with their last user. The blocks under `_guard` await nothing, so
each is one step with what comes before it.
-/
namespace Cowork.ChannelLocks
open Contracts Transitions List Function

structure Address where
  platformId : String
  threadId : Option String

def lockKey (channelType : String) (address : Address) : String :=
  channelType ++ ":" ++ address.platformId ++ ":" ++ orDefault address.threadId "__default__"

/-- A call of `handle`, with its key and the number of its lock. -/
structure Call where
  entry : String × Nat
  inside : Bool := false
  deriving DecidableEq

/-- `made` numbers the locks; `calls` are those that `_refcounts` counts. -/
structure World where
  locks : String → Option Nat := fun _ => none
  refcounts : String → Nat := fun _ => 0
  made : Nat := 0
  calls : List Call := []

inductive Action where
  | handle (channelType : String) (address : Address)
  | enter (call : Call)
  /-- The event was handled, or the call was cancelled, perhaps in its wait. -/
  | leave (call : Call)

/-- The block in `finally`. -/
def World.discount (w : World) (key : String) : World :=
  { w with
    locks := if w.refcounts key ≤ 1 then update w.locks key none else w.locks
    refcounts := update w.refcounts key (w.refcounts key - 1) }

def step (w : World) : Action → World
  | .handle channelType address =>
    let key := lockKey channelType address
    let lock := (w.locks key).getD w.made
    { locks := update w.locks key (some lock)
      refcounts := update w.refcounts key (w.refcounts key + 1)
      made := w.made + 1
      calls := { entry := (key,lock) } :: w.calls }
  | .enter call =>
    if call ∈ w.calls ∧ ∀ c ∈ w.calls, c.entry.2 = call.entry.2 → c.inside = false then
      { w with calls := { call with inside := true } :: w.calls.erase call }
    else w
  | .leave call =>
    if call ∈ w.calls then { w.discount call.entry.1 with calls := w.calls.erase call } else w

/-- The maps are as the entries of the calls tell. -/
structure Counted (w : World) (entries : List (String × Nat)) : Prop where
  refcounts : ∀ key, w.refcounts key = (entries.map Prod.fst).count key
  locks : ∀ key lock, w.locks key = some lock ↔ (key,lock) ∈ entries
  made : ∀ entry ∈ entries, entry.2 < w.made
  own : ∀ entry ∈ entries, ∀ other ∈ entries, entry.2 = other.2 → entry = other

structure Inv (w : World) : Prop where
  counted : Counted w (w.calls.map Call.entry)
  alone : ((w.calls.filter Call.inside).map Call.entry).Nodup

variable {w : World} {call : Call}

theorem Counted.perm {entries others : List (String × Nat)} (counted : Counted w entries) (same : entries ~ others) :
    Counted w others where
  refcounts key := (counted.refcounts key).trans ((same.map _).count_eq key)
  locks key lock := (counted.locks key lock).trans same.mem_iff
  made entry member := counted.made entry (same.mem_iff.mpr member)
  own entry first other second := counted.own entry (same.mem_iff.mpr first) other (same.mem_iff.mpr second)

theorem Inv.handle (inv : Inv w) (channelType : String) (address : Address) :
    Inv (step w (.handle channelType address)) := by
  obtain ⟨⟨refcounts,locks,made,own⟩,alone⟩ := inv
  cases found : w.locks (lockKey channelType address) with
  | some lock =>
    have there := (locks _ _).mp found
    simp only [step,found]
    refine ⟨⟨?_,?_,?_,?_⟩,alone⟩
    all_goals grind
  | none =>
    have fresh : ∀ lock, (lockKey channelType address,lock) ∉ w.calls.map Call.entry := fun lock member => by
      simp [(locks _ _).mpr member] at found
    simp only [step,found]
    refine ⟨⟨?_,?_,?_,?_⟩,alone⟩
    all_goals grind

theorem Counted.discount {entry : String × Nat} {rest : List (String × Nat)} (counted : Counted w (entry :: rest)) :
    Counted (w.discount entry.1) rest := by
  obtain ⟨refcounts,locks,made,own⟩ := counted
  have last : w.refcounts entry.1 ≤ 1 ↔ entry.1 ∉ rest.map Prod.fst := by
    rw [refcounts,map_cons,count_cons_self,← count_eq_zero]
    omega
  have listed := (locks entry.1 entry.2).mpr mem_cons_self
  simp only [World.discount]
  refine ⟨?_,fun key lock => ?_,?_,?_⟩
  · grind
  · have before := locks key lock
    grind
  all_goals grind

theorem Inv.step (inv : Inv w) (action : Action) : Inv (step w action) := by
  have others (call : Call) : (((w.calls.erase call).filter Call.inside).map Call.entry).Nodup :=
    inv.alone.sublist ((erase_sublist.filter _).map _)
  cases action with
  | handle channelType address => exact inv.handle channelType address
  | enter call =>
    rw [ChannelLocks.step]
    split
    · rename_i free
      obtain ⟨refcounts,locks,made,own⟩ := inv.counted.perm ((perm_cons_erase free.1).map Call.entry)
      refine ⟨⟨refcounts,locks,made,own⟩,nodup_cons.mpr ⟨fun again => ?_,others call⟩⟩
      obtain ⟨c,inside,same⟩ := mem_map.mp again
      obtain ⟨there,entered⟩ := mem_filter.mp inside
      simp [free.2 c (mem_of_mem_erase there) (congrArg Prod.snd same)] at entered
    · exact inv
  | leave call =>
    rw [ChannelLocks.step]
    split
    · rename_i there
      obtain ⟨refcounts,locks,made,own⟩ := (inv.counted.perm ((perm_cons_erase there).map Call.entry)).discount
      exact ⟨⟨refcounts,locks,made,own⟩,others call⟩
    · exact inv

/-- After any run: no two calls of one key are inside, calls have one lock just when they have one key, and a key has a
    lock just while it has calls. -/
theorem events_take_turns (actions : List Action) : let w := reach step {} actions
    ((w.calls.filter Call.inside).map (·.entry.1)).Nodup ∧
      (∀ c ∈ w.calls, ∀ d ∈ w.calls, c.entry.2 = d.entry.2 ↔ c.entry.1 = d.entry.1) ∧
      ∀ key, w.locks key = none ↔ ∀ c ∈ w.calls, c.entry.1 ≠ key := by
  intro w
  have fresh : Inv {} := ⟨⟨by simp,by simp,by simp,by simp⟩,by simp⟩
  obtain ⟨⟨_,locks,_,own⟩,alone⟩ : Inv w := always_reach (fun _ action inv => inv.step action) fresh actions
  have listed : ∀ c ∈ w.calls, w.locks c.entry.1 = some c.entry.2 := fun c member => (locks ..).mpr (mem_map_of_mem member)
  have shared : ∀ c ∈ w.calls, ∀ d ∈ w.calls, c.entry.1 = d.entry.1 → c.entry = d.entry := by grind
  refine ⟨?_,by grind,fun key => ?_⟩
  · rw [Nodup,pairwise_map] at alone ⊢
    refine alone.imp_of_mem fun first second apart same => apart ?_
    exact shared _ (mem_filter.mp first).1 _ (mem_filter.mp second).1 same
  · rw [Option.eq_none_iff_forall_ne_some]
    grind

end Cowork.ChannelLocks
