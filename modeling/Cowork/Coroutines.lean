import Mathlib.Data.List.Basic

/-!
Coroutines that can be cancelled. A coroutine computes on a state until it awaits
something; there it is woken by an answer, an event that changes the state from outside,
or a cancellation, which ends the await unless the coroutine runs as work that its
caller waits for (`runToCompletion`). The rules carry assertions through a coroutine,
one for each way to end (`Ensures`); where an await starts from one, it has to survive
the events.
-/
namespace Cowork.Coroutines

inductive Exit (α : Type) where
  | returned (a : α)
  | raised
  | cancelled
deriving DecidableEq

inductive Signal (ι ε : Type) where
  | answer (i : ι)
  | event (e : ε)
  | cancel

/-- A coroutine at its end: `asked`: a cancellation came while its caller waited for it; `rest` are the signals that
    it did not read. -/
structure Ended (σ ι ε α : Type) where
  exit : Exit α
  state : σ
  asked : Bool
  rest : List (Signal ι ε)

/-- A coroutine over the state `σ`. It has no end while it still awaits a signal. -/
def Coro (σ ι ε α : Type) : Type := (shielded asked : Bool) → σ → List (Signal ι ε) → Option (Ended σ ι ε α)

section
variable {σ ι ε α β : Type}

def ret (a : α) : Coro σ ι ε α := fun _ asked s script => some ⟨.returned a,s,asked,script⟩
def raise : Coro σ ι ε α := fun _ asked s script => some ⟨.raised,s,asked,script⟩
def stop : Coro σ ι ε α := fun _ asked s script => some ⟨.cancelled,s,asked,script⟩
def act (f : σ → α × σ) : Coro σ ι ε α := fun _ asked s script => some ⟨.returned (f s).1,(f s).2,asked,script⟩

def andThen (first : Coro σ ι ε α) (next : α → Coro σ ι ε β) : Coro σ ι ε β := fun shielded asked s script =>
  match first shielded asked s script with
  | none => none
  | some ⟨.returned a,s',asked',rest⟩ => next a shielded asked' s' rest
  | some ⟨.raised,s',asked',rest⟩ => some ⟨.raised,s',asked',rest⟩
  | some ⟨.cancelled,s',asked',rest⟩ => some ⟨.cancelled,s',asked',rest⟩

instance : Monad (Coro σ ι ε) where
  pure := ret
  bind := andThen

def look (f : σ → α) : Coro σ ι ε α := act fun s => (f s,s)
def change (f : σ → σ) : Coro σ ι ε Unit := act fun s => ((),f s)

/-- Await an answer. An answer that means nothing here is passed over; `abandon` is what a cancelled await leaves. -/
def wait (outside : ε → σ → σ) (reply : σ → ι → Option (Exit α × σ)) (abandon : σ → σ) : Coro σ ι ε α
  | _,_,_,[] => none
  | shielded,asked,s,.answer i :: rest =>
    match reply s i with
    | some (exit,s') => some ⟨exit,s',asked,rest⟩
    | none => wait outside reply abandon shielded asked s rest
  | shielded,asked,s,.event e :: rest => wait outside reply abandon shielded asked (outside e s) rest
  | true,_,s,.cancel :: rest => wait outside reply abandon true true s rest
  | false,asked,s,.cancel :: rest => some ⟨.cancelled,abandon s,asked,rest⟩

/-- `try` with one `except` for errors and one for a cancellation. -/
def handle (body onRaised onCancelled : Coro σ ι ε α) : Coro σ ι ε α := fun shielded asked s script =>
  match body shielded asked s script with
  | some ⟨.raised,s',asked',rest⟩ => onRaised shielded asked' s' rest
  | some ⟨.cancelled,s',asked',rest⟩ => onCancelled shielded asked' s' rest
  | ended => ended

/-- `try` with a `finally`. -/
def afterwards (body : Coro σ ι ε α) (last : Coro σ ι ε Unit) : Coro σ ι ε α := fun shielded asked s script =>
  match body shielded asked s script with
  | none => none
  | some ⟨exit,s',asked',rest⟩ =>
    match last shielded asked' s' rest with
    | none => none
    | some ⟨.returned _,s'',asked'',rest'⟩ => some ⟨exit,s'',asked'',rest'⟩
    | some ⟨.raised,s'',asked'',rest'⟩ => some ⟨.raised,s'',asked'',rest'⟩
    | some ⟨.cancelled,s'',asked'',rest'⟩ => some ⟨.cancelled,s'',asked'',rest'⟩

/-- Run the work in a task of its own. A cancellation of the caller waits for its end; an error of the work is then
    lost. -/
def runToCompletion (work : Coro σ ι ε α) : Coro σ ι ε α
  | true,asked,s,script => work true asked s script
  | false,asked,s,script =>
    match work true false s script with
    | none => none
    | some ⟨_,s',true,rest⟩ => some ⟨.cancelled,s',asked,rest⟩
    | some ⟨exit,s',false,rest⟩ => some ⟨exit,s',asked,rest⟩

/-- At most `n` rounds of a loop; a round goes on with a `β` or ends it with an `α`. -/
def rounds (body : β → Coro σ ι ε (β ⊕ α)) : Nat → β → Coro σ ι ε α
  | 0,_ => fun _ _ _ _ => none
  | n + 1,b => andThen (body b) fun next =>
    match next with
    | .inl more => rounds body n more
    | .inr a => ret a

/-- A loop whose rounds all await something, so that the signals bound their number (`loop_eq`). -/
def loop (body : β → Coro σ ι ε (β ⊕ α)) (b : β) : Coro σ ι ε α := fun shielded asked s script =>
  rounds body (script.length + 1) b shielded asked s script

def Reads (body : Coro σ ι ε α) : Prop :=
  ∀ shielded asked s script ended, body shielded asked s script = some ended → ended.rest.length < script.length

def Proceeds (body : Coro σ ι ε α) : Prop :=
  ∀ shielded asked s script ended, body shielded asked s script = some ended → ended.rest.length ≤ script.length

theorem Reads.proceeds {body : Coro σ ι ε α} (reads : Reads body) : Proceeds body :=
  fun shielded asked s script ended ran => Nat.le_of_lt (reads shielded asked s script ended ran)

theorem proceeds_ret (a : α) : Proceeds (ret a : Coro σ ι ε α) := by
  intro shielded asked s script ended ran
  cases ran
  exact Nat.le_refl _

theorem proceeds_act (f : σ → α × σ) : Proceeds (act f : Coro σ ι ε α) := by
  intro shielded asked s script ended ran
  cases ran
  exact Nat.le_refl _

theorem reads_wait (outside : ε → σ → σ) (reply : σ → ι → Option (Exit α × σ)) (abandon : σ → σ) :
    Reads (wait outside reply abandon) := by
  intro shielded asked s script ended ran
  induction script generalizing asked s with
  | nil => cases ran
  | cons signal rest ih =>
    rw [List.length_cons]
    cases signal with
    | answer i => grind only [wait]
    | event e => exact Nat.lt_succ_of_lt (ih asked (outside e s) ran)
    | cancel => cases shielded <;> grind only [wait]

variable {first : Coro σ ι ε α} {next : α → Coro σ ι ε β}

theorem andThen_rest (proceeds : ∀ a, Proceeds (next a)) {shielded asked : Bool} {s : σ} {script : List (Signal ι ε)}
    {ended : Ended σ ι ε β} (ran : (first >>= next) shielded asked s script = some ended) :
    ∃ middle, first shielded asked s script = some middle ∧ ended.rest.length ≤ middle.rest.length := by
  have ran : andThen first next shielded asked s script = some ended := ran
  grind only [andThen,Proceeds]

theorem andThen_returned {shielded asked : Bool} {s : σ} {script : List (Signal ι ε)} {ended : Ended σ ι ε β} {b : β}
    (ran : (first >>= next) shielded asked s script = some ended) (exit : ended.exit = .returned b) :
    ∃ a s' asked' rest, first shielded asked s script = some ⟨.returned a,s',asked',rest⟩ ∧
      next a shielded asked' s' rest = some ended := by
  have ran : andThen first next shielded asked s script = some ended := ran
  grind only [andThen]

theorem proceeds_andThen (begins : Proceeds first) (proceeds : ∀ a, Proceeds (next a)) : Proceeds (first >>= next) := by
  intro shielded asked s script ended ran
  obtain ⟨middle,begun,fewer⟩ := andThen_rest proceeds ran
  exact Nat.le_trans fewer (begins shielded asked s script middle begun)

theorem reads_andThen (reads : Reads first) (proceeds : ∀ a, Proceeds (next a)) : Reads (first >>= next) := by
  intro shielded asked s script ended ran
  obtain ⟨middle,begun,fewer⟩ := andThen_rest proceeds ran
  exact Nat.lt_of_le_of_lt fewer (reads shielded asked s script middle begun)

theorem reads_congr (reads : Reads first) {next' : α → Coro σ ι ε β} {shielded asked : Bool} {s : σ}
    {script : List (Signal ι ε)} (same : ∀ a asked' s' rest, rest.length < script.length →
      next a shielded asked' s' rest = next' a shielded asked' s' rest) :
    andThen first next shielded asked s script = andThen first next' shielded asked s script := by
  unfold andThen
  cases begun : first shielded asked s script with
  | none => rfl
  | some middle =>
    have fewer := reads shielded asked s script middle begun
    obtain ⟨exit,s',asked',rest⟩ := middle
    cases exit with
    | returned a => exact same a asked' s' rest fewer
    | raised | cancelled => rfl

theorem rounds_enough {body : β → Coro σ ι ε (β ⊕ α)} (reads : ∀ b, Reads (body b)) {n m : Nat} {b : β}
    {shielded asked : Bool} {s : σ} {script : List (Signal ι ε)} (enough : script.length < n)
    (enough' : script.length < m) :
    rounds body n b shielded asked s script = rounds body m b shielded asked s script := by
  induction n generalizing m b asked s script with
  | zero => omega
  | succ n ih =>
    obtain ⟨m,rfl⟩ : ∃ k, m = k + 1 := ⟨m - 1,by omega⟩
    refine reads_congr (reads b) fun next asked' s' rest fewer => ?_
    cases next with
    | inl more => exact ih (by omega) (by omega)
    | inr a => rfl

theorem loop_eq {body : β → Coro σ ι ε (β ⊕ α)} (reads : ∀ b, Reads (body b)) (b : β) :
    loop body b = body b >>= Sum.elim (loop body) ret := by
  funext shielded asked s script
  refine reads_congr (reads b) fun next asked' s' rest fewer => ?_
  cases next with
  | inl more => exact rounds_enough reads fewer (Nat.lt_succ_self _)
  | inr a => rfl

/-- Where `part` raises, so does `whole`, and leaves the same. -/
def RaisesEarly {γ : Type} (part : Coro σ ι ε β) (whole : Coro σ ι ε γ) : Prop :=
  ∀ shielded asked s script s' asked' rest, part shielded asked s script = some ⟨.raised,s',asked',rest⟩ →
    whole shielded asked s script = some ⟨.raised,s',asked',rest⟩

theorem raisesEarly_ret {whole : Coro σ ι ε α} (b : β) : RaisesEarly (ret b) whole := by
  intro _ _ _ _ _ _ _ ran
  cases ran

theorem raisesEarly_first (first : Coro σ ι ε α) (next : α → Coro σ ι ε β) : RaisesEarly first (first >>= next) := by
  intro shielded asked s script s' asked' rest ran
  show andThen first next shielded asked s script = _
  simp only [andThen,ran]

theorem raisesEarly_andThen {γ : Type} (first : Coro σ ι ε α) {next' : α → Coro σ ι ε γ}
    (each : ∀ a, RaisesEarly (next a) (next' a)) : RaisesEarly (first >>= next) (first >>= next') := by
  intro shielded asked s script s' asked' rest ran
  have ran : andThen first next shielded asked s script = _ := ran
  show andThen first next' shielded asked s script = _
  unfold andThen at ran ⊢
  grind only [RaisesEarly]

/-- From `P` a coroutine that ends has `R` if it returns, `X` if it raises and `C` if it is cancelled. -/
def Ensures (shielded : Bool) (P : σ → Prop) (body : Coro σ ι ε α) (R : α → σ → Prop) (X C : σ → Prop) : Prop :=
  ∀ asked s script ended, P s → body shielded asked s script = some ended →
    match ended.exit with
    | .returned a => R a ended.state
    | .raised => X ended.state
    | .cancelled => C ended.state

variable {shielded : Bool} {P P' X X' C C' : σ → Prop} {R R' : α → σ → Prop} {S : β → σ → Prop}
  {body : Coro σ ι ε α}

theorem ensures_weaken (ensures : Ensures shielded P body R X C) (before : ∀ s, P' s → P s)
    (returned : ∀ a s, R a s → R' a s) (raised : ∀ s, X s → X' s) (cancelled : ∀ s, C s → C' s) :
    Ensures shielded P' body R' X' C' := by grind only [Ensures]

theorem ensures_before (before : ∀ s, P' s → P s) (ensures : Ensures shielded P body R X C) :
    Ensures shielded P' body R X C :=
  ensures_weaken ensures before (fun _ _ => id) (fun _ => id) fun _ => id

theorem ensures_ret {a : α} (after : ∀ s, P s → R a s) : Ensures shielded P (ret a : Coro σ ι ε α) R X C := by
  intro asked s script ended holds ran
  cases ran
  exact after s holds

theorem ensures_raise (after : ∀ s, P s → X s) : Ensures shielded P (raise : Coro σ ι ε α) R X C := by
  intro asked s script ended holds ran
  cases ran
  exact after s holds

theorem ensures_stop : Ensures shielded C (stop : Coro σ ι ε α) R X C := by
  intro asked s script ended holds ran
  cases ran
  exact holds

theorem ensures_act (f : σ → α × σ) (after : ∀ s, P s → R (f s).1 (f s).2) :
    Ensures shielded P (act f : Coro σ ι ε α) R X C := by
  intro asked s script ended holds ran
  cases ran
  exact after s holds

theorem ensures_look (f : σ → α) : Ensures shielded P (look f : Coro σ ι ε α) (fun a s => P s ∧ f s = a) X C :=
  ensures_act _ fun _ holds => ⟨holds,rfl⟩

theorem ensures_change (f : σ → σ) (after : ∀ s, P s → P' (f s)) :
    Ensures shielded P (change f : Coro σ ι ε Unit) (fun _ => P') X C :=
  ensures_act _ after

theorem ensures_andThen (first : Ensures shielded P body R X C) (then' : ∀ a, Ensures shielded (R a) (next a) S X C) :
    Ensures shielded P (body >>= next) S X C := by
  intro asked s script ended holds ran
  have ran : andThen body next shielded asked s script = some ended := ran
  grind only [andThen,Ensures]

theorem ensures_wait {outside : ε → σ → σ} {reply : σ → ι → Option (Exit α × σ)} {abandon : σ → σ}
    (stable : ∀ e s, P s → P (outside e s))
    (returned : ∀ s i a s', P s → reply s i = some (.returned a,s') → R a s')
    (raised : ∀ s i s', P s → reply s i = some (.raised,s') → X s')
    (cancelled : ∀ s i s', P s → reply s i = some (.cancelled,s') → C s')
    (abandoned : shielded = false → ∀ s, P s → C (abandon s)) :
    Ensures shielded P (wait outside reply abandon) R X C := by
  intro asked s script ended holds ran
  induction script generalizing asked s with
  | nil => cases ran
  | cons signal rest ih =>
    cases signal with
    | answer i => grind only [wait]
    | event e => exact ih asked (outside e s) (stable e s holds) ran
    | cancel => cases shielded <;> grind only [wait]

theorem ensures_handle {onRaised onCancelled : Coro σ ι ε α} (try' : Ensures shielded P body R X' C')
    (raised : Ensures shielded X' onRaised R X C) (cancelled : Ensures shielded C' onCancelled R X C) :
    Ensures shielded P (handle body onRaised onCancelled) R X C := by
  intro asked s script ended holds ran
  unfold handle at ran
  cases begun : body shielded asked s script with
  | none => rw [begun] at ran; cases ran
  | some middle =>
    have known := try' asked s script middle holds begun
    rw [begun] at ran
    obtain ⟨exit,s',asked',rest⟩ := middle
    cases exit with
    | returned a => cases ran; exact known
    | raised => exact raised asked' s' rest ended known ran
    | cancelled => exact cancelled asked' s' rest ended known ran

theorem ensures_afterwards {last : Coro σ ι ε Unit} (try' : Ensures shielded P body (fun _ => P') P' P')
    (finally' : Ensures shielded P' last (fun _ => X) X X) :
    Ensures shielded P (afterwards body last) (fun _ => X) X X := by
  intro asked s script ended holds ran
  unfold afterwards at ran
  cases begun : body shielded asked s script with
  | none => rw [begun] at ran; cases ran
  | some middle =>
    have known := try' asked s script middle holds begun
    rw [begun] at ran
    obtain ⟨exit,s',asked',rest⟩ := middle
    have known : P' s' := by cases exit <;> exact known
    simp only at ran
    cases finished : last shielded asked' s' rest with
    | none => rw [finished] at ran; cases ran
    | some final =>
      have after := finally' asked' s' rest final known finished
      rw [finished] at ran
      obtain ⟨exit',s'',asked'',rest'⟩ := final
      cases exit' with
      | returned a => cases ran; cases exit <;> exact after
      | raised | cancelled => cases ran; exact after

theorem ensures_runToCompletion (work : Ensures true P body R X C) (returned : ∀ a s, R a s → C s)
    (raised : ∀ s, X s → C s) : Ensures shielded P (runToCompletion body) R X C := by
  intro asked s script ended holds ran
  cases shielded <;> grind only [runToCompletion,Ensures]

theorem ensures_loop {I : β → σ → Prop} {round : β → Coro σ ι ε (β ⊕ α)} (each : ∀ b, Ensures shielded (I b) (round b)
      (fun next => match next with
        | .inl more => I more
        | .inr a => R a) X C) (b : β) :
    Ensures shielded (I b) (loop round b) R X C := by
  have some_rounds : ∀ n b, Ensures shielded (I b) (rounds round n b) R X C := by
    intro n
    induction n with
    | zero => intro b asked s script ended _ ran; cases ran
    | succ n ih =>
      intro b
      refine ensures_andThen (each b) fun next => ?_
      cases next with
      | inl more => exact ih more
      | inr a => exact ensures_ret fun _ => id
  intro asked s script ended holds ran
  exact some_rounds _ b asked s script ended holds ran

end

end Cowork.Coroutines
