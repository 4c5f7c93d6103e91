import Mathlib.Data.List.GetD
import Cowork.Transitions

/-!
Calls that run at the same time over one shared state. A call begins by looking at the
state, then takes atomic steps, in any order with those of the other calls. An invariant
is proved call by call: what a call knows while it waits (`own`) must hold when it
begins, be handed on by its own steps, and survive every `change` the others may make.
-/
namespace Cowork.Threads
open Transitions

structure Pool (σ τ : Type) where
  shared : σ
  threads : List τ

inductive Turn (κ ι ω : Type) where
  | begin (call : κ)
  | advance (k : Nat) (data : ι)
  | outside (event : ω)

section
variable {σ τ κ ι ω : Type} (start : κ → σ → τ) (move : ι → σ → τ → σ × τ) (outside : ω → σ → σ)

def turn (pool : Pool σ τ) : Turn κ ι ω → Pool σ τ
  | .begin call => ⟨pool.shared,pool.threads ++ [start call pool.shared]⟩
  | .advance k data =>
    match pool.threads[k]? with
    | none => pool
    | some thread => ⟨(move data pool.shared thread).1,pool.threads.set k (move data pool.shared thread).2⟩
  | .outside event => ⟨outside event pool.shared,pool.threads⟩

variable {pool : Pool σ τ} {k : Nat}

theorem turn_idle (absent : pool.threads[k]? = none) (data : ι) :
    turn start move outside pool (.advance k data : Turn κ ι ω) = pool := by simp only [turn,absent]

theorem turn_moves {thread : τ} (found : pool.threads[k]? = some thread) (data : ι) : turn start move outside pool
    (.advance k data : Turn κ ι ω) = ⟨(move data pool.shared thread).1,pool.threads.set k
    (move data pool.shared thread).2⟩ := by simp only [turn,found]

def Allowed (step : ι → σ → τ → Prop) (event : ω → σ → Prop) (pool : Pool σ τ) : Turn κ ι ω → Prop
  | .begin _ => True
  | .advance k data => ∀ thread, pool.threads[k]? = some thread → step data pool.shared thread
  | .outside e => event e pool.shared

instance allowedDecidable {step : ι → σ → τ → Prop} {event : ω → σ → Prop} [∀ data s t, Decidable (step data s t)]
    [∀ e s, Decidable (event e s)] (pool : Pool σ τ) (next : Turn κ ι ω) :
    Decidable (Allowed step event pool next) := by
  cases next <;> unfold Allowed <;> infer_instance

structure Holds (inv : σ → Prop) (own : σ → Nat → τ → Prop) (pool : Pool σ τ) : Prop where
  state : inv pool.shared
  each : ∀ k thread, pool.threads[k]? = some thread → own pool.shared k thread

/-- What a call relies on holds when it begins and is handed on by its steps; steps and outside changes keep the
    invariant and are changes that the other calls survive. -/
structure Safe (inv : σ → Prop) (own : σ → Nat → τ → Prop) (change : σ → σ → Prop) (step : ι → σ → τ → Prop)
    (event : ω → σ → Prop) : Prop where
  begins : ∀ s k call, inv s → own s k (start call s)
  moves : ∀ s k data thread, inv s → own s k thread → step data s thread →
    inv (move data s thread).1 ∧ own (move data s thread).1 k (move data s thread).2 ∧ change s (move data s thread).1
  outsides : ∀ s e, inv s → event e s → inv (outside e s) ∧ change s (outside e s)
  stable : ∀ s t k thread, change s t → own s k thread → own t k thread

variable {start move outside} {inv : σ → Prop} {own : σ → Nat → τ → Prop} {change : σ → σ → Prop}
  {step : ι → σ → τ → Prop} {event : ω → σ → Prop}

section
variable (safe : Safe start move outside inv own change step event)
include safe

theorem Safe.turn (holds : Holds inv own pool)
    (next : Turn κ ι ω) (allowed : Allowed step event pool next) : Holds inv own (turn start move outside pool next) := by
  cases next with
  | begin call =>
    refine ⟨holds.state,fun k thread found => ?_⟩
    grind [Threads.turn,cases Safe,cases Holds]
  | advance k data =>
    cases found : pool.threads[k]? with
    | none => rwa [turn_idle start move outside found]
    | some thread =>
      rw [turn_moves start move outside found]
      obtain ⟨kept,own',changed⟩ := safe.moves _ k data thread holds.state (holds.each k thread found) (allowed thread found)
      refine ⟨kept,fun j other there => ?_⟩
      grind only [List.getElem?_set_self,List.getElem?_eq_some_iff,List.getElem?_set_ne,safe.stable,holds.each]
  | outside e =>
    obtain ⟨kept,changed⟩ := safe.outsides _ e holds.state allowed
    exact ⟨kept,fun k thread found => safe.stable _ _ _ _ changed (holds.each k thread found)⟩

theorem Safe.reach (holds : Holds inv own pool) {turns : List (Turn κ ι ω)}
    (permitted : Permitted (Threads.turn start move outside) (Allowed step event) pool turns) :
    Holds inv own (reach (Threads.turn start move outside) pool turns) := by
  apply invariant_reach ?_ holds permitted
  intro pool next holds allowed
  exact safe.turn holds next allowed

theorem Safe.changes (refl : ∀ s, change s s)
    (trans : ∀ a b c, change a b → change b c → change a c) (holds : Holds inv own pool) {turns : List (Turn κ ι ω)}
    (permitted : Permitted (Threads.turn start move outside) (Allowed step event) pool turns) :
    change pool.shared (Transitions.reach (Threads.turn start move outside) pool turns).shared := by
  induction turns generalizing pool with
  | nil => exact refl _
  | cons next rest ih =>
    refine trans _ _ _ ?_ (ih (safe.turn holds next permitted.1) permitted.2)
    cases next with
    | begin call => exact refl _
    | advance k data =>
      cases found : pool.threads[k]? with
      | none => rw [turn_idle start move outside found]; exact refl _
      | some thread =>
        rw [turn_moves start move outside found]
        exact (safe.moves _ k data thread holds.state (holds.each k thread found) (permitted.1 thread found)).2.2
    | outside e => exact (safe.outsides _ e holds.state permitted.1).2

end

theorem kept_reach {P : τ → Prop} (keeps : ∀ data s thread, P thread → P (move data s thread).2) {thread : τ}
    (found : pool.threads[k]? = some thread) (holds : P thread) (turns : List (Turn κ ι ω)) :
    ∃ thread', (Transitions.reach (Threads.turn start move outside) pool turns).threads[k]? = some thread' ∧
      P thread' := by
  induction turns generalizing pool thread with
  | nil => exact ⟨thread,found,holds⟩
  | cons next rest ih =>
    have bound := (List.getElem?_eq_some_iff.mp found).1
    cases next with
    | begin call => exact ih (by rw [Threads.turn,List.getElem?_append_left bound]; exact found) holds
    | advance j data =>
      cases there : pool.threads[j]? with
      | none =>
        rw [reach_cons,turn_idle start move outside there]
        exact ih found holds
      | some other =>
        rw [reach_cons,turn_moves start move outside there]
        by_cases same : j = k
        · subst same
          cases Option.some.inj (found.symm.trans there)
          exact ih (List.getElem?_set_self bound) (keeps data _ _ holds)
        · exact ih (by rw [List.getElem?_set_ne same]; exact found) holds
    | outside e => exact ih found holds

end

end Cowork.Threads
