import Mathlib.Data.List.Basic
import Cowork.Contracts
import Cowork.JsonText
import Cowork.Transitions

/-!
Approvals (`ApprovalBroker`). A request waits until a `resolve` or a `cancel_session`
closes it, or it gives up; whoever closes it persists the decision by `on_close`. The
locks order the closers, but not the callbacks: a request may leave its wait while one
is still persisting (`unrecorded_accept_and_stale_card`).
-/
namespace Cowork.Approvals
open JsonText (Text)
open Contracts Transitions

inductive ApprovalDecision where
  | approveOnce | approveSession | deny
deriving DecidableEq

def ApprovalDecision.approves : ApprovalDecision → Bool
  | .approveOnce | .approveSession => true
  | .deny => false

/-- `CommandRule`: the fingerprint a session remembers for it, and those of its command's first parts. -/
structure CommandRule where
  grant : Text
  keys : List Text
deriving DecidableEq

/-- `CommandRule.matches`. -/
def CommandRule.isMatch (rule : CommandRule) (grants : List Text) : Bool :=
  rule.keys.any fun key => decide (key ∈ grants)

inductive Party where
  | request | resolve | cancel
deriving DecidableEq

/-- The call of `request`; `on_open` has or has not stored the approval, and raised in `failing`. -/
inductive Requester where
  | asking
  | opening (stored : Bool)
  | failing
  | waiting
  | closing
  | answered (accept : Bool)
  | raised
deriving DecidableEq

/-- What closes a request: `denying` is a `resolve` whose `on_close` raised, before it takes its decision back. -/
inductive Closer where
  | none
  | closing (party : Party) (decision : ApprovalDecision) (stored : Bool)
  | denying
  | waking
  | done
deriving DecidableEq

/-- A call of `request` with its `_Waiter`, the grants the broker looked at, and what `on_open` and `on_close` did. -/
structure Entry where
  session : Nat
  rule : Option CommandRule
  asked : List Text
  requester : Requester
  closer : Closer
  listed : Bool
  decision : Option ApprovalDecision
  closed : Bool
  event : Bool
  opened : Bool
  closes : Nat
  recorded : Option ApprovalDecision
  cleared : Bool

/-- The waiter is in `_waiters`, and is not closed. -/
def Entry.isOpen (entry : Entry) : Bool := entry.listed && !entry.closed

def Entry.new (session : Nat) (rule : Option CommandRule) (readOnly : Bool) : Entry :=
  { session := session, rule := rule, asked := [], requester := if readOnly then .answered false else .asking,
    closer := .none, listed := false, decision := none, closed := false, event := false, opened := false, closes := 0,
    recorded := none, cleared := false }

/-- The first lock of `request`: another open approval of the session, or a remembered
    grant, answers it; else its waiter is listed, and it goes on to `on_open`. -/
def Entry.register (busy : Bool) (grants : List Text) (entry : Entry) : Entry :=
  match entry.requester with
  | .asking =>
    if busy then { entry with asked := grants, requester := .answered false }
    else if entry.rule.any fun rule => rule.isMatch grants then
      { entry with asked := grants, requester := .answered true }
    else { entry with asked := grants, requester := .opening false, listed := true }
  | _ => entry

/-- A waiter is closed, and `on_close` is called. -/
def Entry.close (entry : Entry) (party : Party) (decision : ApprovalDecision) : Entry :=
  { entry with closed := true, closer := .closing party decision false, closes := entry.closes + 1 }

/-- The lock of `cancel_session`. -/
def Entry.cancel (session : Nat) (entry : Entry) : Entry :=
  if entry.session = session ∧ entry.isOpen = true then { entry.close .cancel .deny with decision := some .deny }
  else entry

/-- The second lock of `request`, after its wait. -/
def Entry.leave (entry : Entry) : Entry :=
  match entry.requester with
  | .waiting =>
    if entry.closed then
      { entry with listed := false, requester := .answered ((entry.decision.getD .deny).approves) }
    else { entry.close .request (entry.decision.getD .deny) with listed := false, requester := .closing }
  | _ => entry

inductive Moment where
  /-- `on_open` stores the approval. -/
  | openStore
  | openReturn
  | openRaise
  /-- The lock after an `on_open` that raised. -/
  | unlist
  | wake
  | timeout
  /-- The lock of `resolve`, which may name any session. -/
  | resolve (session : Nat) (decision : ApprovalDecision)
  /-- `on_close` stores its decision. -/
  | closeStore
  | closeReturn
  | closeRaise
  /-- The lock of a `resolve` whose `on_close` raised. -/
  | deny
  | set

def Entry.closeReturn (entry : Entry) : Entry :=
  match entry.closer with
  | .closing .request decision true =>
    { entry with recorded := some decision, closer := .done, requester := .answered decision.approves }
  | .closing _ decision true => { entry with recorded := some decision, closer := .waking }
  | _ => entry

def Entry.closeRaise (entry : Entry) : Entry :=
  match entry.closer with
  | .closing .request _ _ => { entry with closer := .done, requester := .raised }
  | .closing .resolve _ _ => { entry with closer := .denying }
  | .closing .cancel _ _ => { entry with closer := .waking }
  | _ => entry

def Entry.act (entry : Entry) : Moment → Entry
  | .openStore => if entry.requester = .opening false then { entry with requester := .opening true } else entry
  | .openReturn =>
    if entry.requester = .opening true then { entry with requester := .waiting, opened := true } else entry
  | .openRaise =>
    match entry.requester with
    | .opening _ => { entry with requester := .failing }
    | _ => entry
  | .unlist => if entry.requester = .failing then { entry with requester := .raised, listed := false } else entry
  | .wake => if entry.event then entry.leave else entry
  | .timeout => entry.leave
  | .resolve session decision =>
    if entry.session = session ∧ entry.isOpen = true then
      { entry.close .resolve decision with decision := some decision }
    else entry
  | .closeStore =>
    match entry.closer with
    | .closing party decision false => { entry with closer := .closing party decision true, cleared := true }
    | _ => entry
  | .closeReturn => entry.closeReturn
  | .closeRaise => entry.closeRaise
  | .deny => if entry.closer = .denying then { entry with decision := some .deny, closer := .waking } else entry
  | .set => if entry.closer = .waking then { entry with event := true, closer := .done } else entry

structure Session where
  status : SessionStatus
  pendingApproval : Option Nat
  commandApprovalGrants : List Text
  readOnly : Bool

def openApproval (id : Nat) (session : Session) : Session :=
  { session with status := .awaitingApproval, pendingApproval := some id }

/-- `close_and_remember`, with `_close_approval`. -/
def closeAndRemember (commandGrant : Option Text) (session : Session) : Session :=
  { session with
    pendingApproval := none,
    status := if session.status = .awaitingApproval then .running else session.status,
    commandApprovalGrants :=
      match commandGrant with
      | some grant =>
        if grant.isEmpty ∨ grant ∈ session.commandApprovalGrants then session.commandApprovalGrants
        else session.commandApprovalGrants.drop (session.commandApprovalGrants.length - 255) ++ [grant]
      | none => session.commandApprovalGrants }

def Entry.commandGrant (entry : Entry) : Party → ApprovalDecision → Option Text
  | .resolve,.approveSession => entry.rule.map CommandRule.grant
  | _,_ => none

def Entry.effect (id : Nat) (entry : Entry) : Moment → Option (Session → Session)
  | .openStore => if entry.requester = .opening false then some (openApproval id) else none
  | .closeStore =>
    match entry.closer with
    | .closing party decision false => some (closeAndRemember (entry.commandGrant party decision))
    | _ => none
  | _ => none

structure World where
  sessions : Nat → Session
  entries : List Entry

inductive Action where
  | configure (session : Nat) (grants : List Text) (readOnly : Bool)
  | request (session : Nat) (rule : Option CommandRule)
  | register (id : Nat)
  | cancel (session : Nat)
  | act (id : Nat) (moment : Moment)

def World.store (w : World) (session : Nat) (change : Session → Session) : World :=
  { w with sessions := fun s => if s = session then change (w.sessions s) else w.sessions s }

def World.busy (w : World) (session : Nat) : Bool :=
  w.entries.any fun entry => decide (entry.session = session) && entry.isOpen

def step (w : World) : Action → World
  | .configure session grants readOnly =>
    w.store session fun s => { s with commandApprovalGrants := grants, readOnly := readOnly }
  | .request session rule =>
    { w with entries := w.entries ++ [.new session rule (w.sessions session).readOnly] }
  | .register id =>
    match w.entries[id]? with
    | none => w
    | some entry =>
      { w with
        entries := w.entries.set id
          (entry.register (w.busy entry.session) (w.sessions entry.session).commandApprovalGrants) }
  | .cancel session => { w with entries := w.entries.map (Entry.cancel session) }
  | .act id moment =>
    match w.entries[id]? with
    | none => w
    | some entry =>
      let w := { w with entries := w.entries.set id (entry.act moment) }
      match entry.effect id moment with
      | none => w
      | some change => w.store entry.session change

def start (sessions : Nat → Session) : World := ⟨sessions,[]⟩

/-- How far the closing of a request is: the closer, the waiter's decision and `closed`, what `on_close` did, the
    event. -/
inductive Handled : Closer → Option ApprovalDecision → Bool → Nat → Option ApprovalDecision → Bool → Prop
  | unclosed : Handled .none none false 0 none false
  | request (stored : Bool) : Handled (.closing .request .deny stored) none true 1 none false
  | returned (recorded : Option ApprovalDecision) : Handled .done none true 1 recorded false
  | resolve (decision : ApprovalDecision) (stored : Bool) :
    Handled (.closing .resolve decision stored) (some decision) true 1 none false
  | cancel (stored : Bool) : Handled (.closing .cancel .deny stored) (some .deny) true 1 none false
  | denying (decision : ApprovalDecision) : Handled .denying (some decision) true 1 none false
  | waking (decision : ApprovalDecision) (recorded : Option ApprovalDecision)
    (fits : decision.approves = true → recorded = some decision) :
    Handled .waking (some decision) true 1 recorded false
  | done (decision : ApprovalDecision) (recorded : Option ApprovalDecision)
    (fits : decision.approves = true → recorded = some decision) :
    Handled .done (some decision) true 1 recorded true

/-- A request whose `on_open` has not ended. -/
def Requester.early : Requester → Bool
  | .asking | .opening _ | .failing => true
  | _ => false

structure Sound (entry : Entry) : Prop where
  handled : Handled entry.closer entry.decision entry.closed entry.closes entry.recorded entry.event
  opened : entry.opened = true → entry.requester = .waiting ∨ entry.closed = true
  waits : entry.requester = .waiting → entry.opened = true
  fresh : entry.requester.early = true → entry.opened = false

attribute [local grind] Entry.new Entry.register Entry.close Entry.cancel Entry.leave Entry.closeReturn Entry.closeRaise
  Entry.act Entry.isOpen Requester.early ApprovalDecision.approves
attribute [local grind cases] Handled Sound
attribute [local grind intro] Handled Sound

theorem sound_new (session : Nat) (rule : Option CommandRule) (readOnly : Bool) :
    Sound (Entry.new session rule readOnly) := by
  cases readOnly <;> exact ⟨.unclosed,nofun,nofun,fun _ => rfl⟩

variable {entry : Entry} {w : World} {place : Nat} {moment : Moment}

theorem closed_once (sound : Sound entry) : entry.closes ≤ 1 ∧
    (entry.closed = true → entry.closes = 1 ∧ entry.closer ≠ .none) := by grind -linarith

theorem sound_act (sound : Sound entry) (moment : Moment) : Sound (entry.act moment) := by
  cases moment <;> grind -linarith

theorem each_step {P : Entry → Prop} (w : World) (action : Action) (each : ∀ entry ∈ w.entries, P entry)
    (new : ∀ session rule readOnly, P (Entry.new session rule readOnly))
    (register : ∀ entry ∈ w.entries, P entry → ∀ busy grants, P (entry.register busy grants))
    (cancel : ∀ entry ∈ w.entries, P entry → ∀ session, action = .cancel session → P (entry.cancel session))
    (act : ∀ id entry, w.entries[id]? = some entry → P entry → ∀ moment, action = .act id moment →
      P (entry.act moment)) : ∀ entry ∈ (step w action).entries, P entry := by
  cases action <;> grind -linarith [step,World.store]

theorem sound_step (w : World) (action : Action) (sound : ∀ entry ∈ w.entries, Sound entry) :
    ∀ entry ∈ (step w action).entries, Sound entry := by
  refine each_step w action sound sound_new ?_ ?_ ?_
  all_goals grind -linarith [sound_act]

theorem sound_reach (sessions : Nat → Session) (actions : List Action) :
    ∀ entry ∈ (reach step (start sessions) actions).entries, Sound entry := by
  refine always_reach sound_step ?_ actions
  intro entry never
  cases never

/-- A `resolve` has taken its decision, and its `on_close` has not returned. -/
def Closer.unrecorded : Closer → Bool
  | .closing .resolve _ _ | .denying => true
  | _ => false

/-- No wait ends by its timeout while a `resolve` is persisting its decision. -/
def Timed (w : World) : Action → Prop
  | .act id .timeout => ∀ entry ∈ w.entries[id]?, entry.closer.unrecorded = false
  | _ => True

/-- An accepted request matched a remembered grant or was approved by a persisted decision. -/
def Justified (entry : Entry) : Prop :=
  entry.requester = .answered true →
    (entry.rule.any fun rule => rule.isMatch entry.asked) = true ∨
      ∃ decision, decision.approves = true ∧ entry.recorded = some decision

attribute [local grind] Justified Closer.unrecorded CommandRule.isMatch

theorem justified_act (sound : Sound entry) (justified : Justified entry) (moment : Moment)
    (timed : moment = .timeout → entry.closer.unrecorded = false) : Justified (entry.act moment) := by
  cases moment <;> grind -linarith

theorem justified_step (w : World) (action : Action)
    (kept : (∀ entry ∈ w.entries, Sound entry) ∧ ∀ entry ∈ w.entries, Justified entry) (timed : Timed w action) :
    (∀ entry ∈ (step w action).entries, Sound entry) ∧ ∀ entry ∈ (step w action).entries, Justified entry := by
  refine ⟨sound_step w action kept.1,each_step w action kept.2 ?_ ?_ ?_ ?_⟩
  · intro session rule readOnly
    cases readOnly <;> exact nofun
  · intro entry _ justified busy grants
    grind -linarith
  · intro entry _ justified session _
    grind -linarith
  · intro id entry found justified moment same
    refine justified_act (kept.1 entry (List.mem_of_getElem? found)) justified moment ?_
    intro passed
    rw [same,passed] at timed
    exact timed entry found

/-- An `on_open` that raises has stored nothing, an `on_close` that raises has stored its decision, and `resolve` and
    `cancel_session` come after `on_open` returned. -/
def Orderly (w : World) : Action → Prop
  | .act id .openRaise => ∀ entry ∈ w.entries[id]?, entry.requester ≠ .opening true
  | .act id .closeRaise => ∀ entry ∈ w.entries[id]?, ∀ party decision, entry.closer ≠ .closing party decision false
  | .act id (.resolve _ _) => ∀ entry ∈ w.entries[id]?, entry.isOpen = true → entry.opened = true
  | .cancel session => ∀ entry ∈ w.entries, entry.session = session → entry.isOpen = true → entry.opened = true
  | _ => True

def Closer.clears : Closer → Bool
  | .none => false
  | .closing _ _ stored => stored
  | .denying | .waking | .done => true

structure Tidy (entry : Entry) : Prop where
  cleared : entry.cleared = entry.closer.clears
  late : entry.opened = false → entry.closer = .none

attribute [local grind] Orderly Closer.clears
attribute [local grind cases] Tidy
attribute [local grind intro] Tidy

theorem tidy_act (found : w.entries[place]? = some entry) (sound : Sound entry) (tidy : Tidy entry)
    (orderly : Orderly w (.act place moment)) : Tidy (entry.act moment) := by
  cases moment <;> grind -linarith

def Shown (w : World) : Prop :=
  ∀ session id, (w.sessions session).pendingApproval = some id →
    ∃ entry, w.entries[id]? = some entry ∧ entry.session = session ∧ entry.cleared = false ∧
      (entry.requester = .opening true ∨ entry.opened = true)

structure Keeps (entry next : Entry) : Prop where
  session : next.session = entry.session
  cleared : next.cleared = entry.cleared
  shown : entry.requester = .opening true ∨ entry.opened = true → next.requester = .opening true ∨ next.opened = true

attribute [local grind] Shown Entry.effect World.store
attribute [local grind cases] Keeps
attribute [local grind intro] Keeps

theorem keeps_act (found : w.entries[place]? = some entry) (sound : Sound entry) (tidy : Tidy entry)
    (orderly : Orderly w (.act place moment)) (nothing : entry.effect place moment = none) :
    Keeps entry (entry.act moment) := by
  cases moment <;> grind -linarith

theorem shown_set (shown : Shown w) {next : Entry} (found : w.entries[place]? = some entry) (keeps : Keeps entry next) :
    Shown { w with entries := w.entries.set place next } := by grind -linarith

theorem effect_cases {change : Session → Session} (stores : entry.effect place moment = some change) :
    (moment = .openStore ∧ entry.requester = .opening false ∧ change = openApproval place) ∨
    (moment = .closeStore ∧ ∃ grant, change = closeAndRemember grant) := by
  cases moment <;> grind -linarith

theorem shown_store (shown : Shown w) {next : Entry}
    (found : w.entries[place]? = some entry) {change : Session → Session}
    (own : ∀ session id, (change session).pendingApproval = some id → id = place ∧ next.session = entry.session ∧
      next.cleared = false ∧ (next.requester = .opening true ∨ next.opened = true)) :
    Shown (World.store { w with entries := w.entries.set place next } entry.session change) := by
  intro session id pending
  grind -linarith

structure Orders (w : World) : Prop where
  sound : ∀ entry ∈ w.entries, Sound entry
  tidy : ∀ entry ∈ w.entries, Tidy entry
  shown : Shown w

theorem tidy_step (orders : Orders w) {action : Action} (orderly : Orderly w action) : ∀ entry ∈
    (step w action).entries, Tidy entry := by
  refine each_step w action orders.tidy (fun _ _ _ => ⟨rfl,fun _ => rfl⟩) ?_ ?_ ?_
  · intro entry _ tidy busy grants
    grind -linarith
  · intro entry member tidy session same
    have sound := orders.sound entry member
    grind -linarith
  · intro id entry found tidy moment same
    rw [same] at orderly
    exact tidy_act found (orders.sound entry (List.mem_of_getElem? found)) tidy orderly

theorem shown_step (orders : Orders w) {action : Action} (orderly : Orderly w action) : Shown (step w action) := by
  have shown := orders.shown
  cases action with
  | configure => grind -linarith [step]
  | request session rule =>
    intro s id pending
    obtain ⟨entry,there,facts⟩ := shown s id pending
    exact ⟨entry,List.getElem?_append_left (List.getElem?_eq_some_iff.mp there).1 ▸ there,facts⟩
  | cancel session =>
    intro s id pending
    obtain ⟨entry,there,facts⟩ := shown s id pending
    exact ⟨entry.cancel session,by simp [step,there],by grind -linarith⟩
  | register id => grind -linarith [step,shown_set]
  | act id moment =>
    simp only [step]
    cases found : w.entries[id]? with
    | none => exact shown
    | some entry =>
      have sound := orders.sound entry (List.mem_of_getElem? found)
      have tidy := orders.tidy entry (List.mem_of_getElem? found)
      dsimp only
      cases stores : entry.effect id moment with
      | none => exact shown_set shown found (keeps_act found sound tidy orderly stores)
      | some change =>
        rcases effect_cases stores with ⟨rfl,opening,rfl⟩ | ⟨rfl,grant,rfl⟩
        · exact shown_store shown found (by grind -linarith [openApproval])
        · exact shown_store shown found nofun

theorem orders_step (w : World) (action : Action) (orders : Orders w) (orderly : Orderly w action) :
    Orders (step w action) :=
  ⟨sound_step w action orders.sound,tidy_step orders orderly,shown_step orders orderly⟩

/-- The call of `request` has returned or raised. -/
def Requester.ended : Requester → Bool
  | .answered _ | .raised => true
  | _ => false

def Closer.idle : Closer → Bool
  | .none | .done => true
  | _ => false

def Quiet (w : World) (session : Nat) : Prop :=
  ∀ entry ∈ w.entries, entry.session = session → entry.requester.ended = true ∧ entry.closer.idle = true

theorem quiet_clear (orders : Orders w) {session : Nat} (quiet : Quiet w session) :
    (w.sessions session).pendingApproval = none := by
  cases pending : (w.sessions session).pendingApproval <;> grind -linarith [Requester.ended,Closer.idle,cases Orders,
    Quiet]

/-- If no wait ends by its timeout while a `resolve` persists its decision, a request is accepted only by a matching
    grant or a persisted approval, `on_close` is called once, and no approval stays pending where callbacks that raise
    have stored what they should. -/
theorem approvals_fail_closed (sessions : Nat → Session) (fresh : ∀ s, (sessions s).pendingApproval = none)
    (actions : List Action) (w : World) (run : reach step (start sessions) actions = w) :
    (Permitted step Timed (start sessions) actions →
      ∀ entry ∈ w.entries, entry.requester = .answered true →
        (entry.rule.any fun rule => rule.isMatch entry.asked) = true ∨
          ∃ decision, decision.approves = true ∧ entry.recorded = some decision) ∧
    (∀ entry ∈ w.entries, entry.closes ≤ 1 ∧
      (entry.opened = true → entry.requester.ended = true → entry.closes = 1)) ∧
    (Permitted step Orderly (start sessions) actions →
      ∀ session, Quiet w session → (w.sessions session).pendingApproval = none) := by
  subst run
  have empty (P : Entry → Prop) : ∀ entry ∈ (start sessions).entries, P entry := by
    intro entry never; cases never
  refine ⟨?_,?_,?_⟩
  · intro timed; exact (invariant_reach justified_step ⟨empty _,empty _⟩ timed).2
  · intro entry member
    have sound := sound_reach sessions actions entry member
    have once := closed_once sound
    refine ⟨once.1,?_⟩
    intro opened ended
    rcases sound.opened opened with waits | closed
    · rw [waits] at ended; cases ended
    · exact (once.2 closed).1
  · intro orderly session quiet
    refine quiet_clear (invariant_reach orders_step ⟨empty _,empty _,?_⟩ orderly) quiet
    intro s id pending
    rw [start,fresh] at pending; cases pending

def sampleSession : Session := ⟨.running,none,[],false⟩

def sampleOpened : List Action :=
  [.request 0 none,.register 0,.act 0 .openStore,.act 0 .openReturn]

def sampleApproved : List Action :=
  sampleOpened ++ [.act 0 (.resolve 0 .approveOnce),.act 0 .closeStore,.act 0 .closeReturn,.act 0 .set,.act 0 .wake]

theorem sampleApproved_recorded :
    (reach step (start fun _ => sampleSession) sampleApproved).entries.map Entry.requester = [.answered true] ∧
      ∀ entry ∈ (reach step (start fun _ => sampleSession) sampleApproved).entries, entry.requester = .answered true →
        (entry.rule.any fun rule => rule.isMatch entry.asked) = true ∨
          ∃ decision, decision.approves = true ∧ entry.recorded = some decision := by
  have timed : Permitted step Timed (start fun _ => sampleSession) sampleApproved :=
    ⟨trivial,trivial,trivial,trivial,trivial,trivial,trivial,trivial,trivial,trivial⟩
  exact ⟨by decide +kernel,(approvals_fail_closed _ (fun _ => rfl) sampleApproved _ rfl).1 timed⟩

/-- An approval that its wait's timeout answers with is not persisted; a card cancelled during its opening, or whose
    `on_close` raises, stays pending. -/
theorem unrecorded_accept_and_stale_card :
    (reach step (start fun _ => sampleSession) (sampleOpened ++
      [.act 0 (.resolve 0 .approveOnce),.act 0 .timeout,.act 0 .closeRaise,.act 0 .deny,.act 0 .set])).entries.map
        (fun entry => (entry.requester,entry.rule,entry.recorded,entry.closer)) =
      [(.answered true,none,none,.done)] ∧
    (Quiet (reach step (start fun _ => sampleSession)
        [.request 0 none,.register 0,.cancel 0,.act 0 .closeStore,.act 0 .closeReturn,.act 0 .set,.act 0 .openStore,
          .act 0 .openReturn,.act 0 .wake]) 0 ∧
      ((reach step (start fun _ => sampleSession)
        [.request 0 none,.register 0,.cancel 0,.act 0 .closeStore,.act 0 .closeReturn,.act 0 .set,.act 0 .openStore,
          .act 0 .openReturn,.act 0 .wake]).sessions 0).pendingApproval = some 0) ∧
    (Quiet (reach step (start fun _ => sampleSession) (sampleOpened ++ [.act 0 .timeout,.act 0 .closeRaise])) 0 ∧
      ((reach step (start fun _ => sampleSession) (sampleOpened ++
        [.act 0 .timeout,.act 0 .closeRaise])).sessions 0).pendingApproval = some 0) := by
  refine ⟨by decide +kernel,⟨?_,by decide +kernel⟩,?_,by decide +kernel⟩
  all_goals
    unfold Quiet
    decide +kernel

end Cowork.Approvals
