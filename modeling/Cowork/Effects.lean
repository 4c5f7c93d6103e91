import Mathlib.Logic.Relation

/-!
Programs that read and write a state and may raise. What one wrote before it raised
stays written, as with Python statements; a transaction takes its writes back
(`atomically`). A reflexive and transitive relation holds over a program when it holds
over its parts.
-/
namespace Cowork.Effects

/-- A program over the state `σ` that returns an `α` or raises an `ε`. -/
def Prog (σ ε α : Type) : Type := σ → Except ε α × σ

section
variable {σ ε α β : Type}

def ret (a : α) : Prog σ ε α := fun s => (.ok a,s)
def raise (e : ε) : Prog σ ε α := fun s => (.error e,s)
/-- Run `next` on what `first` returned, in the state `first` left. -/
def andThen (first : Prog σ ε α) (next : α → Prog σ ε β) : Prog σ ε β := fun s =>
  match first s with
  | (.ok a,s') => next a s'
  | (.error e,s') => (.error e,s')

instance : Monad (Prog σ ε) where
  pure := ret
  bind := andThen

def attempt (r : Except ε α) : Prog σ ε α := fun s => (r,s)
def look (f : σ → α) : Prog σ ε α := fun s => (.ok (f s),s)
def write (f : σ → σ) : Prog σ ε Unit := fun s => (.ok (),f s)
/-- `for item in items: body(item)`. -/
def forEach (body : β → Prog σ ε Unit) : List β → Prog σ ε Unit
  | [] => ret ()
  | item :: rest => andThen (body item) (fun _ => forEach body rest)
def collect (body : β → Prog σ ε α) : List β → Prog σ ε (List α)
  | [] => ret []
  | item :: rest => andThen (body item) (fun a => andThen (collect body rest) (fun more => ret (a :: more)))
def atomically (p : Prog σ ε α) : Prog σ ε α := fun s =>
  match p s with
  | (.ok a,s') => (.ok a,s')
  | (.error e,_) => (.error e,s)

variable {p : Prog σ ε α} {f : α → Prog σ ε β} {s t : σ} {a : α} {e : ε} {r : Except ε α} {items : List β}

@[simp] theorem ret_run (a : α) (s : σ) : (ret a : Prog σ ε α) s = (.ok a,s) := rfl
@[simp] theorem raise_run (e : ε) (s : σ) : (raise e : Prog σ ε α) s = (.error e,s) := rfl
@[simp] theorem look_run (f : σ → α) (s : σ) : (look f : Prog σ ε α) s = (.ok (f s),s) := rfl
@[simp] theorem write_run (f : σ → σ) (s : σ) : (write f : Prog σ ε Unit) s = (.ok (),f s) := rfl
@[simp] theorem attempt_run (r : Except ε α) (s : σ) : (attempt r : Prog σ ε α) s = (r,s) := rfl
@[simp] theorem bind_run (p : Prog σ ε α) (f : α → Prog σ ε β) (s : σ) : (p >>= f) s = andThen p f s := rfl

theorem andThen_ok {s' : σ} (first : p s = (.ok a,s')) : andThen p f s = f a s' := by simp only [andThen,first]

theorem andThen_error {s' : σ} (first : p s = (.error e,s')) : andThen p f s = (.error e,s') := by
  simp only [andThen,first]

theorem andThen_returns {b : β} (ran : andThen p f s = (.ok b,t)) : ∃ a s', p s = (.ok a,s') ∧ f a s' = (.ok b,t) := by
  grind only [andThen]

theorem andThen_cases {r : Except ε β} (ran : andThen p f s = (r,t)) :
    (∃ e, p s = (.error e,t) ∧ r = .error e) ∨ ∃ a s', p s = (.ok a,s') ∧ f a s' = (r,t) := by grind only [andThen]

theorem attempt_ok (ok : r = .ok a) (s : σ) : (attempt r : Prog σ ε α) s = (.ok a,s) := by
  rw [attempt_run,ok]

theorem attempt_error (raised : r = .error e) (s : σ) : (attempt r : Prog σ ε α) s = (.error e,s) := by
  rw [attempt_run,raised]

theorem attempt_returns (ran : (attempt r : Prog σ ε α) s = (.ok a,t)) : r = .ok a ∧ t = s := by
  rw [Prod.mk.injEq] at ran
  exact ⟨ran.1,ran.2.symm⟩

theorem forEach_map {γ : Type} (f : γ → β) (body : β → Prog σ ε Unit) (items : List γ) :
    forEach body (items.map f) = forEach (fun item => body (f item)) items := by
  induction items with
  | nil => rfl
  | cons item rest ih => simp only [List.map_cons,forEach,ih]

theorem collect_returns {body : β → Prog σ ε α} {out : List α} (ran : collect body items s = (.ok out,t))
    (member : a ∈ out) : ∃ item ∈ items, ∃ s' t', body item s' = (.ok a,t') := by
  induction items generalizing s t out with
  | nil =>
    cases ran
    simp at member
  | cons item rest ih =>
    obtain ⟨first,s',head,more⟩ := andThen_returns ran
    grind only [List.mem_cons,andThen,ret]

variable {R : σ → σ → Prop}

def Keeps (R : σ → σ → Prop) (p : Prog σ ε α) (s : σ) : Prop := R s (p s).2

theorem keeps_ret (refl : ∀ s, R s s) (a : α) (s : σ) : Keeps R (ret a : Prog σ ε α) s := refl s
theorem keeps_raise (refl : ∀ s, R s s) (e : ε) (s : σ) : Keeps R (raise e : Prog σ ε α) s := refl s
theorem keeps_attempt (refl : ∀ s, R s s) (r : Except ε α) (s : σ) : Keeps R (attempt r : Prog σ ε α) s := refl s

theorem keeps_andThen (trans : ∀ a b c, R a b → R b c → R a c) (first : Keeps R p s)
    (rest : ∀ a s', p s = (.ok a,s') → Keeps R (f a) s') : Keeps R (andThen p f) s := by grind only [Keeps,andThen]

theorem keeps_forEach (refl : ∀ s, R s s) (trans : ∀ a b c, R a b → R b c → R a c) {body : β → Prog σ ε Unit}
    (each : ∀ item ∈ items, ∀ s, Keeps R (body item) s) (s : σ) : Keeps R (forEach body items) s := by
  induction items generalizing s with
  | nil => exact refl s
  | cons item rest ih =>
    apply keeps_andThen trans (each item (by simp) s)
    intro _ s' _; exact ih (fun other member => each other (by simp [member])) s'

theorem keeps_collect (refl : ∀ s, R s s) (trans : ∀ a b c, R a b → R b c → R a c) {body : β → Prog σ ε α}
    (each : ∀ item ∈ items, ∀ s, Keeps R (body item) s) (s : σ) : Keeps R (collect body items) s := by
  induction items generalizing s with
  | nil => exact refl s
  | cons item rest ih =>
    apply keeps_andThen trans (each item (by simp) s)
    intro a s' _
    apply keeps_andThen trans (ih (fun other member => each other (by simp [member])) s')
    intro more s'' _; exact refl s''

theorem keeps_atomically (refl : ∀ s, R s s) (kept : Keeps R p s) : Keeps R (atomically p) s := by
  grind only [Keeps,atomically]

/-- `try: p except: h`. -/
def handle (p : Prog σ ε α) (h : ε → Prog σ ε α) : Prog σ ε α := fun s =>
  match p s with
  | (.ok a,s') => (.ok a,s')
  | (.error e,s') => h e s'
/-- `try: p finally: cleanup`. -/
def ensure (p : Prog σ ε α) (cleanup : Prog σ ε Unit) : Prog σ ε α := fun s =>
  match p s with
  | (r,s') =>
    match cleanup s' with
    | (.ok (),s'') => (r,s'')
    | (.error e,s'') => (.error e,s'')

/-- From a state with `P` the program returns with `Q` or raises with `E`. -/
def Triple (P : σ → Prop) (p : Prog σ ε α) (Q : α → σ → Prop) (E : σ → Prop) : Prop :=
  ∀ s, P s → (∀ a t, p s = (.ok a,t) → Q a t) ∧ ∀ e t, p s = (.error e,t) → E t

variable {P : σ → Prop} {Q : α → σ → Prop} {E : σ → Prop}

theorem returned_with (ran : p s = (.ok a,t)) (holds : Q a t) : (∀ a t, p s = (.ok a,t) → Q a t) ∧ ∀ e t, p s =
    (.error e,t) → E t := by
  rw [ran]
  refine ⟨fun b u run => ?_,fun e u run => (by cases run)⟩
  cases run
  exact holds

theorem raised_with (ran : p s = (.error e,t)) (holds : E t) : (∀ a t, p s = (.ok a,t) → Q a t) ∧ ∀ e t, p s =
    (.error e,t) → E t := by
  rw [ran]
  refine ⟨fun b u run => (by cases run),fun e' u run => ?_⟩
  cases run
  exact holds

theorem triple_weaken {P' : σ → Prop} {Q' : α → σ → Prop} {E' : σ → Prop} (ran : Triple P p Q E)
    (before : ∀ s, P' s → P s) (returned : ∀ a t, Q a t → Q' a t) (raised : ∀ t, E t → E' t) : Triple P' p Q' E' :=
  fun s start => ⟨fun a t run => returned a t ((ran s (before s start)).1 a t run),
    fun e t run => raised t ((ran s (before s start)).2 e t run)⟩

theorem triple_returns (ran : Triple P p Q (fun _ => False)) (start : P s) : ∃ a t, p s = (.ok a,t) ∧ Q a t := by
  rcases run : p s with ⟨r,t⟩
  cases r with
  | ok a => exact ⟨a,t,rfl,(ran s start).1 a t run⟩
  | error e => exact ((ran s start).2 e t run).elim

theorem triple_look (f : σ → α) : Triple P (look f : Prog σ ε α) (fun _ => P) E := fun _ start => returned_with rfl start

theorem triple_andThen {R : β → σ → Prop} (first : Triple P p Q E) (rest : ∀ a, Triple (Q a) (f a) R E) :
    Triple P (andThen p f) R E := by grind only [Triple,andThen]

theorem triple_forEach {I : List β → σ → Prop} {body : β → Prog σ ε Unit}
    (each : ∀ item rest, Triple (I (item :: rest)) (body item) (fun _ => I rest) E) (items : List β) :
    Triple (I items) (forEach body items) (fun _ => I []) E := by
  induction items with
  | nil => exact fun _ start => returned_with rfl start
  | cons item rest ih => exact triple_andThen (each item rest) (fun _ => ih)

theorem triple_handle {E' : σ → Prop} {h : ε → Prog σ ε α} (first : Triple P p Q E')
    (caught : ∀ e, Triple E' (h e) Q E) : Triple P (handle p h) Q E := by grind only [handle,Triple]

theorem triple_ensure {cleanup : Prog σ ε Unit} (first : Triple P p Q E)
    (returned : ∀ a, Triple (Q a) cleanup (fun _ => Q a) (fun _ => False))
    (raised : Triple E cleanup (fun _ => E) (fun _ => False)) : Triple P (ensure p cleanup) Q E := by
  intro s start
  rcases hp : p s with ⟨r,s'⟩
  cases r <;> grind only [ensure,Triple]

end

end Cowork.Effects
