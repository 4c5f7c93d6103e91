import Mathlib.Data.List.Basic
import Mathlib.Logic.Function.Iterate

/-!
Systems that take one input after another. A claim about whole runs is reduced to one
about a single step: an invariant that every permitted step keeps holds after every
permitted run. A system that runs by itself comes to rest in one state at most.
-/
namespace Cowork.Transitions
open Function

section
variable {σ ι : Type} (step : σ → ι → σ)

def reach (s : σ) (inputs : List ι) : σ := inputs.foldl step s

def Permitted (ok : σ → ι → Prop) : σ → List ι → Prop
  | _,[] => True
  | s,i :: rest => ok s i ∧ Permitted ok (step s i) rest

@[simp] theorem reach_nil (s : σ) : reach step s [] = s := rfl
@[simp] theorem reach_cons (s : σ) (i : ι) (rest : List ι) :
    reach step s (i :: rest) = reach step (step s i) rest := rfl
theorem reach_append (s : σ) (first rest : List ι) :
    reach step s (first ++ rest) = reach step (reach step s first) rest := List.foldl_append

variable {step}

variable {ok : σ → ι → Prop} {s : σ} {inputs : List ι}

theorem permitted_mono {ok' : σ → ι → Prop} (weaker : ∀ s i, ok s i → ok' s i)
    (permitted : Permitted step ok s inputs) : Permitted step ok' s inputs := by
  induction inputs generalizing s with
  | nil => trivial
  | cons i rest ih => exact ⟨weaker s i permitted.1,ih permitted.2⟩

theorem permitted_and {ok' : σ → ι → Prop} (first : Permitted step ok s inputs) (second : Permitted step ok' s inputs) :
    Permitted step (fun s i => ok s i ∧ ok' s i) s inputs := by
  induction inputs generalizing s with
  | nil => trivial
  | cons i rest ih => exact ⟨⟨first.1,second.1⟩,ih first.2 second.2⟩

theorem permitted_always (always : ∀ s i, ok s i) (s : σ) (inputs : List ι) : Permitted step ok s inputs := by
  induction inputs generalizing s with
  | nil => trivial
  | cons i rest ih => exact ⟨always s i,ih (step s i)⟩

instance permittedDecidable {ok : σ → ι → Prop} [∀ s i, Decidable (ok s i)] :
    (s : σ) → (inputs : List ι) → Decidable (Permitted step ok s inputs)
  | _,[] => .isTrue trivial
  | s,i :: rest =>
    have : Decidable (Permitted step ok (step s i) rest) := permittedDecidable (step s i) rest
    inferInstanceAs (Decidable (ok s i ∧ Permitted step ok (step s i) rest))

theorem invariant_reach {Inv : σ → Prop} {ok : σ → ι → Prop}
    (keep : ∀ s i, Inv s → ok s i → Inv (step s i)) {s : σ} (initial : Inv s) {inputs : List ι}
    (permitted : Permitted step ok s inputs) : Inv (reach step s inputs) := by
  induction inputs generalizing s with
  | nil => exact initial
  | cons i rest ih => exact ih (keep s i initial permitted.1) permitted.2

theorem always_reach {Inv : σ → Prop} (keep : ∀ s i, Inv s → Inv (step s i)) {s : σ} (initial : Inv s)
    (inputs : List ι) : Inv (reach step s inputs) := by
  induction inputs generalizing s with
  | nil => exact initial
  | cons i rest ih => exact ih (keep s i initial)

theorem reach_project {τ : Type} {step' : τ → ι → τ} {project : σ → τ} {Inv : σ → Prop}
    (keep : ∀ s i, Inv s → ok s i → Inv (step s i)) (commutes : ∀ s i, Inv s → ok s i →
    project (step s i) = step' (project s) i) (initial : Inv s) (permitted : Permitted step ok s inputs) :
    project (reach step s inputs) = reach step' (project s) inputs := by
  induction inputs generalizing s with
  | nil => rfl
  | cons i rest ih =>
    rw [reach_cons,reach_cons,ih (keep s i initial permitted.1) permitted.2,commutes s i initial permitted.1]

end

theorem set_found {α : Type} {xs : List α} {k j : Nat} {next other : α} (found : (xs.set k next)[j]? = some other) :
    j = k ∧ other = next ∨ j ≠ k ∧ xs[j]? = some other := by grind

theorem append_found {α : Type} {xs : List α} {j : Nat} {last other : α} (found : (xs ++ [last])[j]? = some other) :
    xs[j]? = some other ∨ j = xs.length ∧ other = last := by grind

theorem all_set {α : Type} {xs : List α} {P : Nat → α → Prop} {k : Nat} {next : α}
    (all : ∀ j x, j ≠ k → xs[j]? = some x → P j x) (new : P k next) (j : Nat) (x : α)
    (found : (xs.set k next)[j]? = some x) : P j x := by
  rcases set_found found with ⟨rfl,rfl⟩ | ⟨apart,before⟩
  · exact new
  · exact all j x apart before

theorem all_append {α : Type} {xs : List α} {P : Nat → α → Prop} {last : α} (all : ∀ j x, xs[j]? = some x → P j x)
    (new : P xs.length last) (j : Nat) (x : α) (found : (xs ++ [last])[j]? = some x) : P j x := by
  rcases append_found found with before | ⟨rfl,rfl⟩
  · exact all j x before
  · exact new

section
variable {σ : Type} {step : σ → σ}

def Settles (step : σ → σ) (s rest : σ) : Prop := (∃ n, step^[n] s = rest) ∧ step rest = rest

theorem Settles.later {s rest : σ} (n : Nat) (settles : Settles step (step^[n] s) rest) : Settles step s rest := by
  obtain ⟨⟨m,comes⟩,still⟩ := settles
  exact ⟨⟨m + n,by rw [iterate_add_apply,comes]⟩,still⟩

theorem Settles.next {s rest : σ} (settles : Settles step (step s) rest) : Settles step s rest := settles.later 1

theorem Settles.unique {s rest other : σ} (settles : Settles step s rest) (settles' : Settles step s other) :
    rest = other := by
  obtain ⟨⟨n,comes⟩,still⟩ := settles
  obtain ⟨⟨m,comes'⟩,still'⟩ := settles'
  calc rest = step^[m] rest := (iterate_fixed still m).symm
    _ = step^[m + n] s := by rw [iterate_add_apply,comes]
    _ = step^[n + m] s := by rw [Nat.add_comm]
    _ = step^[n] other := by rw [iterate_add_apply,comes']
    _ = other := iterate_fixed still' n

end

end Cowork.Transitions
