import Cowork.TurnCancels

/-!
When the latest cancel decides (`latest_cancel_decides`). Once a cancellation was
delivered, `cancel_run` reports success without another one, and the watcher has stopped
polling (`later_cancels_lost`). For a turn that still answers (`Live`) the watcher polls
until a delivery, and the latest success was delivered or is on its way.
-/
namespace Cowork.LatestCancel
open Transitions TurnCancels

def Settled (world : World) : Prop := ∀ latest ∈ world.latest, latest.2 < world.deliveries

instance (world : World) : Decidable (Settled world) := inferInstanceAs (Decidable (∀ latest ∈ world.latest, _))

def Untouched (world : World) : Prop :=
  world.cancelRequested = false ∧ world.flag = false ∧ (world.watcher = .sleeping ∨ world.watcher = .ended)

instance (world : World) : Decidable (Untouched world) := inferInstanceAs (Decidable (_ ∧ _ ∧ (_ ∨ _)))

/-- Unguarded requests through the handle may overlap; any other comes alone, to a turn that no cancel has reached,
    and one through the flag alone to a watched turn. The keys live until the watcher has read them. -/
def Careful (world : World) : Action → Prop
  | .request guarded shared _ =>
    if guarded || shared then
      (∀ other ∈ world.requests, other.place.active = false) ∧ Untouched world ∧ (shared = true → world.watched = true)
    else (∀ other ∈ world.requests, other.place.active = true → other.plain = true) ∧ Settled world
  | .expire => (∀ other ∈ world.requests, other.place.active = true → other.plain = true) ∧ Settled world
  | _ => True

instance (world : World) (action : Action) : Decidable (Careful world action) := by
  cases action <;> unfold Careful <;> infer_instance

def Reads (world : World) (reason : Reason) : Prop :=
  match world.watcher with
  | .sleeping | .asked => stallCause world.cause = reason.isStall
  | .got cause => stallCause cause = reason.isStall
  | .ended => True

structure OnItsWay (world : World) (reason : Reason) : Prop where
  undelivered : world.cancelRequested = false
  flag : world.flag = true
  watching : world.watcher ≠ .ended
  reads : Reads world reason

def Current (world : World) (request : Request) : Prop :=
  match request.place with
  | .checking | .writing => Untouched world
  | .deciding =>
    if world.cancelRequested then request.since < world.deliveries ∧ world.stalled = request.reason.isStall
    else Reads world request.reason
  | .reported _ | .raised => True

def Alive (world : World) : Prop := world.answering = true ∧ world.shuttingDown = false

structure Base (world : World) : Prop where
  counted : 0 < world.deliveries → world.cancelRequested = true
  unwatched : world.watched = false → world.watcher = .ended
  since : ∀ (k : Nat) (request : Request), world.requests[k]? = some request → request.since ≤ world.deliveries
  latest : ∀ latest ∈ world.latest, latest.2 ≤ world.deliveries
  watched : ∀ (k : Nat) (request : Request), world.requests[k]? = some request → request.shared = true →
    world.watched = true
  alone : ∀ (i j : Nat) (request other : Request), world.requests[i]? = some request → world.requests[j]? = some other →
    request.place.active = true → request.plain = false → other.place.active = true → i = j

structure Live (world : World) : Prop where
  watching : world.watched = true → world.cancelRequested = false → world.watcher ≠ .ended
  decides : ∀ reason since, world.latest = some (reason,since) →
    since < world.deliveries ∧ world.stalled = reason.isStall ∨ OnItsWay world reason
  current : ∀ (k : Nat) (request : Request), world.requests[k]? = some request → request.place.active = true →
    request.plain = false → Current world request
  settled : ∀ (k : Nat) (request : Request), world.requests[k]? = some request → request.place.active = true →
    Settled world

theorem stallCause_causeOf (reason : Reason) : stallCause (causeOf reason) = reason.isStall := by
  cases reason <;> rfl

theorem sent_isStall (request : Request) : request.sent.isStall = request.reason.isStall := by
  unfold Request.sent
  cases request.guarded <;> cases request.reason <;> rfl

section
variable {world : World}

theorem Alive.guard (alive : Alive world) : (!world.answering || world.shuttingDown) = false := by
  simp [alive.1,alive.2]

variable {reason : Reason}

theorem OnItsWay.delivers (way : OnItsWay world reason) (alive : Alive world) : Delivers world reason := by
  obtain ⟨undelivered,flag,watching,reads⟩ := way
  obtain ⟨answering,open_⟩ := alive
  simp only [World.answering] at answering
  simp only [Delivers,reach_cons,step]
  cases watcher : world.watcher with
  | ended => exact absurd watcher watching
  | _ =>
    simp only [Reads,watcher] at reads
    simp [poll,watcher,World.answering,World.deliver,answering,open_,flag,undelivered,reads]

theorem Live.delivered (live : Live world) (base : Base world) (settled : Settled world) {since : Nat}
    (latest : world.latest = some (reason,since)) : since < world.deliveries ∧ world.stalled = reason.isStall := by
  have before : since < world.deliveries := settled _ latest
  have requested := base.counted (by omega)
  exact (live.decides reason since latest).resolve_right fun way => by simp [way.undelivered] at requested

theorem Live.none_latest (live : Live world) (base : Base world) (untouched : Untouched world) :
    world.latest = none := by
  obtain ⟨undelivered,unset,_⟩ := untouched
  have counted := base.counted
  refine Option.eq_none_iff_forall_not_mem.mpr fun ⟨reason,since⟩ latest => ?_
  rcases live.decides reason since latest with ⟨before,-⟩ | way
  · grind only
  · simp [way.flag] at unset

theorem Base.calm (base : Base world) {after : World} (requests : after.requests = world.requests)
    (watched : after.watched = world.watched) (latest : after.latest = world.latest)
    (more : world.deliveries ≤ after.deliveries) (counted : 0 < after.deliveries → after.cancelRequested = true)
    (watcher : world.watcher = .ended → after.watcher = .ended) : Base after where
  counted := counted
  unwatched := fun unwatched => watcher (base.unwatched (watched ▸ unwatched))
  since := requests ▸ fun k request found => Nat.le_trans (base.since k request found) more
  latest := latest ▸ fun latest found => Nat.le_trans (base.latest latest found) more
  watched := requests ▸ watched ▸ base.watched
  alone := requests ▸ base.alone

theorem poll_base (base : Base world) (ok : Bool) : Base (poll world ok) := by
  have counted := base.counted
  refine base.calm ?_ ?_ ?_ ?_ ?_ ?_ <;> grind only [poll,World.deliver,World.watched]

section
variable (live : Live world)
include live

theorem Live.deciding (touched : ¬Untouched world) {k : Nat} {request : Request}
    (found : world.requests[k]? = some request) (active : request.place.active = true) (kind : request.plain = false) :
    request.place = .deciding ∧
      if world.cancelRequested then request.since < world.deliveries ∧ world.stalled = request.reason.isStall
      else Reads world request.reason := by
  have known := live.current k request found active kind
  cases place : request.place <;> simp_all [Current,Place.active]

theorem Live.watch {watcher : Watcher} (going : watcher ≠ .ended) (touched : ¬Untouched world)
    (reads : ∀ reason, Reads world reason → Reads { world with watcher := watcher } reason) :
    Live { world with watcher := watcher } := by
  refine ⟨fun _ _ => going,fun reason since latest => ?_,fun k request found active kind => ?_,live.settled⟩
  · rcases live.decides reason since latest with done | way
    · exact .inl done
    · exact .inr ⟨way.undelivered,way.flag,going,reads reason way.reads⟩
  grind only [live.deciding,Current]

theorem Live.watcher_ends (base : Base world) (alive : Alive world) {cause : Option Reason}
    (watcher : world.watcher = .got cause) : Live (poll world true) := by
  have touched : ¬Untouched world := by simp [Untouched,watcher]
  have counted := base.counted
  cases requested : world.cancelRequested with
  | true =>
    have ends : poll world true = { world with watcher := .ended } := by simp [poll,watcher,requested]
    rw [ends]
    refine ⟨fun _ undelivered => by simp [requested] at undelivered,fun reason since latest => ?_,
      fun k request found active kind => ?_,live.settled⟩
    all_goals grind only [Current,cases OnItsWay,cases Live]
  | false =>
    have ends : poll world true = { world.deliver (stallCause cause) with watcher := .ended } := by
      simp [poll,watcher,alive.guard,requested]
    rw [ends]
    refine ⟨nofun,fun reason since latest => ?_,fun k request found active kind => ?_,
      fun k request found active latest there => Nat.lt_succ_of_lt (live.settled k request found active latest there)⟩
    · have least := base.latest _ latest
      grind only [Reads,cases OnItsWay,cases Live,World.deliver]
    grind only [Reads,Current,cases Live,cases Base,World.deliver]

theorem poll_live (base : Base world) (alive : Alive world) (ok : Bool) : Live (poll world ok) := by
  grind only [poll,alive.guard,live.watch,Untouched,Reads,live.watcher_ends]

theorem Live.expire (base : Base world) (careful : Careful world .expire) :
    Live (step world .expire) where
  watching := live.watching
  decides := fun _ _ latest => .inl (live.delivered base careful.2 latest)
  current := by grind only [List.mem_of_getElem?,Careful,step]
  settled := live.settled

end

theorem request_base (base : Base world) {guarded shared : Bool}
    (careful : Careful world (.request guarded shared reason)) :
    Base (step world (.request guarded shared reason)) := by
  obtain ⟨counted,unwatched,since,latest,watched,alone⟩ := base
  simp only [Careful] at careful
  refine ⟨counted,unwatched,all_append since (Nat.le_refl _),latest,all_append watched fun alone => ?_,
    fun i j request other => ?_⟩
  · have alone : shared = true := alone
    simp only [alone,Bool.or_true] at careful
    exact careful.2.2 trivial
  · simp only [step]
    grind [Request.plain]

theorem request_live (live : Live world) (base : Base world) {guarded shared : Bool}
    (careful : Careful world (.request guarded shared reason)) :
    Live (step world (.request guarded shared reason)) := by
  simp only [Careful] at careful
  have settled : Settled world := by
    split_ifs at careful
    · rw [Settled,live.none_latest base careful.2.1]
      simp
    · exact careful.2
  refine ⟨live.watching,fun _ _ latest => .inl (live.delivered base settled latest),
    all_append live.current fun _ kind => ?_,fun _ _ _ _ => settled⟩
  grind only [Request.plain,Current,Untouched,step]

section
variable {k : Nat} {request : Request} {place : Place}

theorem Base.move (base : Base world) (found : world.requests[k]? = some request) (busy : request.place.active = true)
    {after : World} (requests : after.requests = world.requests.set k { request with place := place })
    (watched : after.watched = world.watched) (watcher : after.watcher = world.watcher)
    (latest : ∀ latest ∈ after.latest, latest.2 ≤ after.deliveries) (more : world.deliveries ≤ after.deliveries)
    (counted : 0 < after.deliveries → after.cancelRequested = true) : Base after := by
  have since := base.since
  have shared := base.watched
  refine ⟨counted,by rw [watched,watcher]; exact base.unwatched,?_,latest,?_,fun i j first second => ?_⟩
  · grind
  · grind
  · have before := base.alone i j
    grind [Request.plain]

theorem Base.others (base : Base world) (found : world.requests[k]? = some request) (busy : request.place.active = true)
    {j : Nat} {other : Request} (elsewhere : j ≠ k) (there : world.requests[j]? = some other)
    (active : other.place.active = true) : other.plain = true := by
  by_contra kind
  exact elsewhere (base.alone j k other request there found active (by simpa using kind) busy)

theorem Live.put (live : Live world) (found : world.requests[k]? = some request) (busy : request.place.active = true)
    (known : request.plain = false → place.active = true → Current world { request with place := place }) :
    Live (world.put k { request with place := place }) where
  watching := live.watching
  decides := fun reason since latest => (live.decides reason since latest).imp id fun way =>
    ⟨way.undelivered,way.flag,way.watching,way.reads⟩
  current := all_set (fun j other _ => live.current j other) fun active kind => known kind active
  settled := all_set (fun j other _ => live.settled j other) fun _ => live.settled k request found busy

theorem Live.flagged (live : Live world) (base : Base world) (found : world.requests[k]? = some request)
    (writing : request.place = .writing) (next : place = .raised ∨ place = .deciding) :
    Live ((world.setFlag request.sent).put k { request with place := place }) := by
  have busy : request.place.active = true := by rw [writing]; rfl
  have settled := live.settled k request found busy
  refine ⟨live.watching,fun _ _ latest => .inl (live.delivered base settled latest),?_,fun _ _ _ _ => settled⟩
  refine all_set (fun j other elsewhere old active kind => ?_) fun active kind => ?_
  · simp [base.others found busy elsewhere old active] at kind
  · have untouched := live.current k request found busy kind
    grind only [Reads,World.put,World.setFlag,stallCause_causeOf,sent_isStall,Current,Untouched]

theorem Live.shared (live : Live world) (base : Base world) (alive : Alive world)
    (found : world.requests[k]? = some request) (writing : request.place = .writing) (shared : request.shared = true) :
    Live ((world.setFlag request.sent).report k request true) := by
  have busy : request.place.active = true := by rw [writing]; rfl
  have kind : request.plain = false := by simp [Request.plain,shared]
  have untouched := live.current k request found busy kind
  rw [Current,writing] at untouched
  obtain ⟨undelivered,-,place⟩ := untouched
  have watching := live.watching (base.watched k request found shared) undelivered
  have sleeping : world.watcher = .sleeping := place.resolve_right watching
  have idle : ∀ (j : Nat) (other : Request),
      ((world.setFlag request.sent).report k request true).requests[j]? = some other → other.place.active ≠ true :=
    all_set (fun j other elsewhere old active =>
      elsewhere (base.alone k j request other found old busy kind active).symm) nofun
  refine ⟨fun _ _ => watching,fun reason since latest => ?_,fun j other there active => absurd active (idle j other there),
    fun j other there active => absurd active (idle j other there)⟩
  have latest : (if (true && world.answering) = true then some (request.reason,request.since) else world.latest) =
      some (reason,since) := latest
  simp only [alive.1] at latest
  obtain ⟨rfl,rfl⟩ := latest
  refine .inr ⟨undelivered,rfl,watching,?_⟩
  simp [Reads,World.report,World.setFlag,sleeping,stallCause_causeOf,sent_isStall]

theorem Live.reported (base : Base world) (found : world.requests[k]? = some request)
    (busy : request.place.active = true) {after : World} (alive : after.answering = true)
    (requests : after.requests = world.requests)
    (requested : after.cancelRequested = true) (delivered : request.since < after.deliveries)
    (stalled : after.stalled = request.reason.isStall) : Live (after.report k request true) := by
  have latest : (after.report k request true).latest = some (request.reason,request.since) := by
    simp [World.report,alive]
  refine ⟨fun _ undelivered => by simp [World.report,requested] at undelivered,fun reason since last => ?_,?_,
    fun j other there active last member => ?_⟩
  · cases latest.symm.trans last
    exact .inl ⟨delivered,stalled⟩
  · simp only [World.report,requests]
    refine all_set (fun j other elsewhere old active kind => ?_) nofun
    simp [base.others found busy elsewhere old active] at kind
  · cases latest.symm.trans member
    exact delivered

theorem Base.report (base : Base world) (found : world.requests[k]? = some request) (busy : request.place.active = true)
    {after : World} (cancelled : Bool) (requests : after.requests = world.requests) (same : after.latest = world.latest)
    (watched : after.watched = world.watched) (watcher : after.watcher = world.watcher)
    (more : world.deliveries ≤ after.deliveries)
    (counted : 0 < after.deliveries → after.cancelRequested = true) : Base (after.report k request cancelled) := by
  have since := base.since k request found
  have before := base.latest
  refine @Base.move world k request (.reported cancelled) base found busy _ (by simp [World.report,requests]) watched
    watcher ?_ more counted
  simp only [World.report]
  grind

theorem advance_base (base : Base world) (found : world.requests[k]? = some request) (outcome : Outcome) :
    Base (advance world k request outcome) := by
  have latest := base.latest
  cases place : request.place with
  | checking =>
    simp only [advance,place]
    exact base.move found (by rw [place]; rfl) rfl rfl rfl latest (Nat.le_refl _) base.counted
  | writing =>
    have busy : request.place.active = true := by rw [place]; rfl
    simp only [advance,place]
    split
    · exact base.move found busy rfl rfl rfl latest (Nat.le_refl _) base.counted
    · exact base.move found busy rfl rfl rfl latest (Nat.le_refl _) base.counted
    · split
      · exact base.report found busy true rfl rfl rfl rfl (Nat.le_refl _) base.counted
      · exact base.move found busy rfl rfl rfl latest (Nat.le_refl _) base.counted
  | deciding =>
    have busy : request.place.active = true := by rw [place]; rfl
    simp only [advance,place]
    unfold finalize
    split_ifs
    · exact base.report found busy false rfl rfl rfl rfl (Nat.le_refl _) base.counted
    · exact base.report found busy true rfl rfl rfl rfl (Nat.le_refl _) base.counted
    · exact base.report found busy true rfl rfl rfl rfl (Nat.le_succ _) fun _ => rfl
    · exact base.report found busy true rfl rfl rfl rfl (Nat.le_succ _) fun _ => rfl
    · exact base.report found busy false rfl rfl rfl rfl (Nat.le_refl _) base.counted
  | reported cancelled | raised => simpa only [advance,place] using base

theorem look_known (base : Base world) (untouched : Untouched world) :
    Current world { request with place := look world request } := by
  grind only [look,World.watched,Current,Reads,cases Base,Untouched]

theorem finalize_live (live : Live world) (base : Base world) (alive : Alive world)
    (found : world.requests[k]? = some request) (deciding : request.place = .deciding) :
    Live (finalize world k request) := by
  have busy : request.place.active = true := by rw [deciding]; rfl
  have before := base.since k request found
  have running : world.running = true := by
    have answering := alive.1
    simp only [World.answering,Bool.and_eq_true] at answering
    exact answering.1.1
  have delivers : Live ((world.deliver request.reason.isStall).report k request true) :=
    @Live.reported world k request base found busy (world.deliver request.reason.isStall) alive.1 rfl rfl
      (Nat.lt_succ_of_le before) rfl
  grind only [finalize,Request.plain,Current,Live.reported,cases Live,Alive]

theorem advance_live (live : Live world) (base : Base world) (alive : Alive world)
    (found : world.requests[k]? = some request) (outcome : Outcome) : Live (advance world k request outcome) := by
  cases place : request.place with
  | checking =>
    have busy : request.place.active = true := by rw [place]; rfl
    simp only [advance,place]
    grind only [live.put,look_known,Current,cases Live]
  | writing =>
    simp only [advance,place]
    cases outcome with
    | failed => exact live.put found (by rw [place]; rfl) nofun
    | lost => exact live.flagged base found place (.inl rfl)
    | done => grind only [live.shared,live.flagged]
  | deciding =>
    simp only [advance,place]
    exact finalize_live live base alive found place
  | reported cancelled | raised => simpa only [advance,place] using live

end

theorem advance_turn (world : World) (k : Nat) (request : Request) (outcome : Outcome) :
    (advance world k request outcome).answering = world.answering ∧
      (advance world k request outcome).shuttingDown = world.shuttingDown := by
  unfold advance finalize
  cases request.place <;> grind only [World.answering,World.put,World.setFlag,World.report,World.deliver]

theorem poll_turn (world : World) (ok : Bool) :
    (poll world ok).answering = world.answering ∧ (poll world ok).shuttingDown = world.shuttingDown := by
  grind only [poll,World.answering,World.deliver]

structure Inv (world : World) : Prop where
  base : Base world
  live : Alive world → Live world

theorem fresh_inv (redis remote : Bool) : Inv (fresh redis remote) := by
  constructor
  · constructor <;> simp [fresh,World.watched]
  · intro _
    constructor <;> simp [fresh,World.watched]

theorem step_inv (inv : Inv world) {action : Action} (careful : Careful world action) : Inv (step world action) := by
  obtain ⟨base,live⟩ := inv
  cases action with
  | request guarded shared reason =>
    exact ⟨request_base base careful,fun alive => request_live (live alive) base careful⟩
  | advance k outcome =>
    cases found : world.requests[k]? with
    | none => simpa only [step,found] using Inv.mk base live
    | some request =>
      refine ⟨?_,fun alive => ?_⟩
      all_goals grind only [step,advance_base,advance_turn,Alive,advance_live]
  | poll ok =>
    refine ⟨poll_base base ok,fun alive => ?_⟩
    grind only [poll_turn,Alive,poll_live,step]
  | expire =>
    exact ⟨base.calm rfl rfl rfl (Nat.le_refl _) base.counted id,fun alive => (live alive).expire base careful⟩
  | finishing | closeBuffer | finish =>
    refine ⟨base.calm rfl rfl rfl (Nat.le_refl _) base.counted id,fun alive => ?_⟩
    have never := alive.1
    simp [step,World.answering] at never
  | shutdown => exact ⟨base.calm rfl rfl rfl (Nat.le_refl _) base.counted id,fun alive => by cases alive.2⟩

end

/-- The latest cancel decides in every run in which a guarded request, or one through
    the flag alone, is the first to reach the turn. -/
theorem latest_cancel_decides (redis remote : Bool) (actions : List Action)
    (careful : Permitted step Careful (fresh redis remote) actions) :
    LatestDecides (reach step (fresh redis remote) actions) := by
  have inv := @invariant_reach _ _ step Inv Careful (fun _ _ inv ok => step_inv inv ok) _
    (fresh_inv redis remote) _ careful
  intro answering open_ reason since latest
  have alive : Alive (reach step (fresh redis remote) actions) := ⟨answering,open_⟩
  rcases (inv.live alive).decides reason since latest with done | way
  · exact .inl done
  · exact .inr (way.delivers alive)

/-- A stall cancel through the flag, which the producer absorbs, and then a Stop through the handle. -/
def orderlyRun : List Action :=
  [.request false true .stalled,.advance 0 .done,.advance 0 .done,.poll true,.poll true,.poll true,
    .request false false .stop,.advance 1 .done,.advance 1 .done,.advance 1 .done]

theorem orderlyRun_decides : Permitted step Careful (fresh true false) orderlyRun ∧
    (reach step (fresh true false) (orderlyRun.take 6)).stalled = true ∧
    (reach step (fresh true false) orderlyRun).deliveries = 2 ∧
    (reach step (fresh true false) orderlyRun).stalled = false ∧
    LatestDecides (reach step (fresh true false) orderlyRun) :=
  have careful : Permitted step Careful (fresh true false) orderlyRun := by decide +kernel
  ⟨careful,by decide +kernel,by decide +kernel,by decide +kernel,latest_cancel_decides true false orderlyRun careful⟩

def guardedRun : List Action :=
  [.request true false .stalled,.advance 0 .done,.advance 0 .done,.request true false .stop,.advance 1 .done,
    .advance 1 .done]

/-- The producer absorbs a Stop through the handle; another replica asks for a stall cancel. -/
def flaggedRun : List Action :=
  [.request false false .stop,.advance 0 .done,.advance 0 .done,.advance 0 .done,.request true true .stalled,
    .advance 1 .done,.advance 1 .done]

theorem later_cancels_lost :
    (reach step (fresh false false) guardedRun).requests.map (·.place) = [.reported true,.reported true] ∧
    (reach step (fresh false false) guardedRun).deliveries = 1 ∧
    (reach step (fresh false false) guardedRun).stalled = true ∧
    ¬LatestDecides (reach step (fresh false false) guardedRun) ∧
    (reach step (fresh true false) flaggedRun).requests.map (·.place) = [.reported true,.reported true] ∧
    (reach step (fresh true false) flaggedRun).deliveries = 1 ∧
    ¬LatestDecides (reach step (fresh true false) flaggedRun) := by
  refine ⟨by decide +kernel,by decide +kernel,by decide +kernel,?_,by decide +kernel,by decide +kernel,?_⟩
  · intro decides
    rcases decides (by decide +kernel) (by decide +kernel) .stop 1 (by decide +kernel) with ⟨never,-⟩ | ⟨never,-⟩
    all_goals exact absurd never (by decide +kernel)
  · intro decides
    rcases decides (by decide +kernel) (by decide +kernel) .stalled 1 (by decide +kernel) with ⟨never,-⟩ | ⟨never,-⟩
    all_goals exact absurd never (by decide +kernel)

end Cowork.LatestCancel
