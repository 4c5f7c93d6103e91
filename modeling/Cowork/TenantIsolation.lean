import Cowork.ScopedSession

/-!
What a scoped session does to the rows of other organizations. The flush hook lets only
the organization's own rows pass (`beforeFlush_settles`), so a flush leaves the others'
as they were. A condition on the caller's instances that keeps them from those rows is
kept by every action that brings no instance against it (`act_isolated`).
-/
namespace Cowork.ScopedSession
open KeyedRows List

/-- A row that the scope keys by organization, and that belongs to another one. A row
    without an organization is nobody's. -/
def foreign (s : Setting) (row : Row) : Bool :=
  keyed s row.table &&
    match row.org with
    | none => false
    | some held =>
      match orgIdFor s row.table with
      | .ok org => held ≠ org
      | .error _ => true

def Free (s : Setting) (db : Database) (place : Table × Nat) : Prop := db.Pass (fun row => !foreign s row) place

instance (s : Setting) (db : Database) (place : Table × Nat) : Decidable (Free s db place) :=
  inferInstanceAs (Decidable (db.Pass _ place))

variable {s : Setting} {row : Row} {i next : Instance} {heap : List Instance}

theorem foreign_unkeyed (unkeyed : keyed s row.table = false) : foreign s row = false := by simp [foreign,unkeyed]

theorem foreign_own {org : OrgId} (own : orgIdFor s row.table = .ok org) (held : row.org = some org) :
    foreign s row = false := by simp [foreign,own,held]

theorem foreign_congr {other : Row} (table : other.table = row.table) (org : other.org = row.org) :
    foreign s other = foreign s row := by simp only [foreign,table,org]

theorem required_ok {table : Table} {org : Option OrgId} (asked : required s table = .ok org) : org = none ∧
    keyed s table = false ∨ ∃ own, org = some own ∧ orgIdFor s table = .ok own := by
  grind only [required,partitions,orgIdFor,Except.map]

theorem foreign_required {org : Option OrgId} (asked : required s row.table = .ok org)
    (meets : org.all (fun org => row.org = some org) = true) : foreign s row = false := by
  grind [required_ok,foreign_unkeyed,foreign_own]

structure Visited (i next : Instance) : Prop where
  place : next.row.place = i.row.place
  state : next.state = i.state

theorem Visited.refl (i : Instance) : Visited i i := ⟨rfl,rfl⟩

theorem Visited.trans {j k : Instance} (first : Visited i j) (second : Visited j k) : Visited i k :=
  ⟨second.place.trans first.place,second.state.trans first.state⟩

theorem stampOrReject_ok (done : stampOrReject s i = .ok next) : Visited i next ∧ foreign s next.row = false := by
  unfold stampOrReject at done
  cases asked : required s i.row.table with
  | error why => simp [asked] at done
  | ok org =>
    rw [asked] at done
    cases org with
    | none => cases done; exact ⟨.refl i,foreign_required asked rfl⟩
    | some org =>
      cases held : i.row.org with
      | none =>
        simp only [held,Except.ok.injEq] at done
        subst done
        exact ⟨⟨rfl,rfl⟩,foreign_required asked (by simp)⟩
      | some other =>
        simp only [held] at done
        by_cases same : other = org
        · rw [if_pos same] at done
          cases done; exact ⟨.refl i,foreign_required asked (by simp [held,same])⟩
        · rw [if_neg same] at done; cases done

theorem stampAuthor_visited (s : Setting) (i : Instance) :
    Visited i (stampAuthor s i) ∧ foreign s (stampAuthor s i).row = foreign s i.row := by
  unfold stampAuthor
  split
  · exact ⟨⟨rfl,rfl⟩,foreign_congr rfl rfl⟩
  · exact ⟨.refl i,rfl⟩

def Settled (s : Setting) (i : Instance) : Prop :=
  match i.state with
  | .pending => foreign s i.row = false
  | .persistent _ => i.changed = true → foreign s i.row = false
  | _ => True

theorem settled_own (own : foreign s i.row = false) : Settled s i := by
  unfold Settled
  split
  · exact own
  · exact fun _ => own
  · trivial

theorem stampNew_ok (done : stampNew s i = .ok next) : Visited i next ∧
    (next.state = .pending → foreign s next.row = false) := by
  unfold stampNew at done
  split at done
  next pending =>
    obtain ⟨visited,own⟩ := stampOrReject_ok done
    exact ⟨visited,fun _ => own⟩
  next other =>
    cases done; exact ⟨.refl i,fun pending => absurd pending other⟩

theorem stampDirty_ok (done : stampDirty s i = .ok next) : Visited i next ∧
    ((i.state = .pending → foreign s i.row = false) → Settled s next) := by
  unfold stampDirty at done
  split at done
  next key persistent =>
    split at done
    next changed =>
      obtain ⟨visited,own⟩ := stampOrReject_ok done
      exact ⟨visited,fun _ => settled_own own⟩
    next unchanged =>
      cases done; exact ⟨.refl i,fun _ => by simp [Settled,persistent,unchanged]⟩
  next other =>
    cases done
    refine ⟨.refl i,fun new => ?_⟩
    grind only [Settled]

theorem stampAuthorNew_ok (done : stampAuthorNew s i = .ok next) : Visited i next ∧ (Settled s i → Settled s next) := by
  unfold stampAuthorNew at done
  split at done
  next pending =>
    grind only [stampAuthor_visited,Settled]
  next =>
    cases done; exact ⟨.refl i,id⟩

theorem refuseDeletion_ok (done : refuseDeletion s i = .ok next) : next = i := by
  unfold refuseDeletion at done
  repeat' split at done
  all_goals first | exact (Except.ok.inj done).symm | cases done

theorem sweep_found {visit : Instance → Except Refusal Instance} (member : next ∈ (sweep visit heap).1) :
    ∃ i ∈ heap, next = i ∨ visit i = .ok next := by
  induction heap <;> grind only [sweep,mem_cons]

theorem sweep_done {visit : Instance → Except Refusal Instance} {swept : List Instance}
    (done : sweep visit heap = (swept,none)) : ∀ next ∈ swept, ∃ i ∈ heap, visit i = .ok next := by
  induction heap generalizing swept <;> grind [sweep]

theorem sweeps_found {visits : List (Instance → Except Refusal Instance)}
    (keeps : ∀ visit ∈ visits, ∀ i next, visit i = .ok next → Visited i next) (member : next ∈ (sweeps visits heap).1) :
    ∃ i ∈ heap, Visited i next := by
  induction visits generalizing heap with
  | nil => exact ⟨next,member,.refl next⟩
  | cons visit rest ih =>
    have once : ∀ j ∈ (sweep visit heap).1, ∃ i ∈ heap, Visited i j := by
      intro j there
      obtain ⟨i,inside,same⟩ := sweep_found there
      rcases same with rfl | made
      · exact ⟨j,inside,.refl j⟩
      · exact ⟨i,inside,keeps visit mem_cons_self i j made⟩
    unfold sweeps at member
    rcases swept : sweep visit heap with ⟨heap',_ | why⟩
    · rw [swept] at member once
      obtain ⟨j,there,later⟩ := ih (fun v listed => keeps v (mem_cons_of_mem visit listed)) member
      obtain ⟨i,inside,first⟩ := once j there
      exact ⟨i,inside,first.trans later⟩
    · rw [swept] at member once
      exact once next member

theorem beforeFlush_found (member : next ∈ (beforeFlush s heap).1) : ∃ i ∈ heap, Visited i next := by
  refine sweeps_found ?_ member
  intro visit listed i next made
  simp only [mem_cons,not_mem_nil,or_false] at listed
  rcases listed with rfl | rfl | rfl | rfl
  · exact (stampNew_ok made).1
  · exact (stampDirty_ok made).1
  · exact (stampAuthorNew_ok made).1
  · rw [refuseDeletion_ok made]; exact .refl i

theorem beforeFlush_settles {swept : List Instance} (done : beforeFlush s heap = (swept,none)) :
    ∀ i ∈ swept, Settled s i := by
  unfold beforeFlush at done
  -- the four loops in turn
  simp only [sweeps] at done
  rcases first : sweep (stampNew s) heap with ⟨one,_ | why⟩ <;> simp only [first] at done
  · rcases second : sweep (stampDirty s) one with ⟨two,_ | why⟩ <;> simp only [second] at done
    · rcases third : sweep (stampAuthorNew s) two with ⟨three,_ | why⟩ <;> simp only [third] at done
      · rcases fourth : sweep (refuseDeletion s) three with ⟨four,_ | why⟩ <;> simp only [fourth] at done
        · cases done
          intro i member
          obtain ⟨c,inThree,refused⟩ := sweep_done fourth i member
          obtain ⟨b,inTwo,signed⟩ := sweep_done third c inThree
          obtain ⟨a,inOne,stamped⟩ := sweep_done second b inTwo
          obtain ⟨o,inside,new⟩ := sweep_done first a inOne
          rw [refuseDeletion_ok refused]
          exact (stampAuthorNew_ok signed).2 ((stampDirty_ok stamped).2 (stampNew_ok new).2)
        · cases done
      · cases done
    · cases done
  · cases done

def Apart (s : Setting) (db : Database) (i : Instance) : Prop :=
  ∀ key, i.state.identity = some key → Free s db (i.row.table,key)

/-- The rows of other organizations are those of `db`. -/
def Spares (s : Setting) (db current : Database) : Prop := current.keep (foreign s) = db.keep (foreign s)

theorem Spares.free {db current : Database} (spares : Spares s db current) {place : Table × Nat}
    (free : Free s db place) : Free s current place := pass_congr spares free

theorem Spares.back {db current : Database} (spares : Spares s db current) {place : Table × Nat}
    (free : Free s current place) : Free s db place := pass_congr spares.symm free

theorem Spares.found {s : Setting} {db current : Database} (spares : Spares s db current) {row : Row}
    (member : row ∈ current.rows) (own : foreign s row = false) : Free s db row.place :=
  spares.back (pass_found member (by simp [own]))

section
variable {P : Database → Prop} {Q R : Instance → Prop}
    {write : Database → Instance → Except Refusal (Database × Instance)}

theorem emit_keeps (one : ∀ db i next j, P db → Q i → write db i = .ok (next,j) → P next ∧ R j)
    {db next : Database} {heap written : List Instance} (holds : P db) (all : ∀ i ∈ heap, Q i)
    (done : emit write db heap = .ok (next,written)) : P next ∧ ∀ j ∈ written, R j := by
  induction heap generalizing db written <;> grind [emit]

end

/-- Such a condition keeps the instances from other organizations' rows, looks only at what they stand for and their
    key, and holds of every row read or written under a key free of others. -/
structure Admits (s : Setting) (db : Database) (Q : Instance → Prop) : Prop where
  apart : ∀ {i}, Q i → Apart s db i
  same : ∀ {i next : Instance}, Q i → next.row.place = i.row.place → next.state.identity = i.state.identity → Q next
  read : ∀ {row}, Free s db row.place → Q (loaded row)

section
variable {s : Setting} {db : Database} {Q : Instance → Prop}

variable {i j : Instance} {current next : Database} {heap : List Instance}

theorem Admits.visited (admits : Admits s db Q) {next : Instance} (visited : Visited i next) (holds : Q i) : Q next :=
  admits.same holds visited.place (by rw [visited.state])

structure Ready (s : Setting) (Q : Instance → Prop) (i : Instance) : Prop where
  holds : Q i
  settled : Settled s i

theorem ready_loaded (admits : Admits s db Q) {row : Row} (free : Free s db row.place) : Ready s Q (loaded row) :=
  ⟨admits.read free,fun changed => nomatch changed⟩

theorem replace_spares {place : Table × Nat} {row : Row} (spares : Spares s db current) (free : Free s db place)
    (own : foreign s row = false) (done : current.replace place row = some next) : Spares s db next ∧
    Free s db row.place := by
  refine ⟨(replace_rest done (spares.free free) own).trans spares,?_⟩
  rcases (replace_some done).1 with stays | absent
  · rwa [stays]
  · exact spares.back (pass_absent absent)

theorem update_keeps (admits : Admits s db Q) (spares : Spares s db current) (ready : Ready s Q i)
    (done : update current i = .ok (next,j)) : Spares s db next ∧ Ready s Q j := by
  unfold update at done
  split at done
  next key persistent =>
    split at done
    next changed =>
      split at done
      · cases done
      · split at done
        next => cases done
        next replaced =>
          cases done
          have own : foreign s i.row = false := by
            have settled := ready.settled
            rw [Settled,persistent] at settled
            exact settled changed
          have free : Free s db (i.row.table,key) := admits.apart ready.holds key (by rw [persistent]; rfl)
          obtain ⟨spares',free'⟩ := replace_spares spares free own replaced
          exact ⟨spares',ready_loaded admits free'⟩
    next =>
      cases done; exact ⟨spares,ready⟩
  next =>
    cases done; exact ⟨spares,ready⟩

theorem insert_keeps (admits : Admits s db Q) (others : ∀ other ∈ heap, Q other) (spares : Spares s db current)
    (ready : Ready s Q i) (done : insert heap current i = .ok (next,j)) : Spares s db next ∧ Ready s Q j := by
  unfold insert at done
  split at done
  next pending =>
    have own : foreign s i.row = false := by
      have settled := ready.settled
      rwa [Settled,pending] at settled
    split at done
    next switched =>
      -- the row that is deleted under this key is one that the session had
      obtain ⟨other,inside,is⟩ := any_eq_true.mp switched
      simp only [Bool.and_eq_true,decide_eq_true_eq] at is
      have free : Free s db i.row.place := by
        have free := admits.apart (others other inside) i.row.key (by rw [is.2]; rfl)
        rwa [is.1] at free
      grind only [replace_spares,ready_loaded]
    next =>
      split at done
      next => cases done
      next inserted =>
        cases done
        have free : Free s db i.row.place := spares.back (pass_absent (insert_some inserted).1)
        exact ⟨(insert_rest inserted own).trans spares,ready_loaded admits free⟩
  next =>
    cases done; exact ⟨spares,ready⟩

theorem erase_keeps (admits : Admits s db Q) (spares : Spares s db current) (ready : Ready s Q i)
    (done : erase heap current i = .ok (next,j)) : Spares s db next ∧ Ready s Q j := by
  unfold erase at done
  split at done
  next key deleting =>
    have free : Free s db (i.row.table,key) := admits.apart ready.holds key (by rw [deleting]; rfl)
    have ready' : Ready s Q { i with state := .deleted key } :=
      ⟨admits.same ready.holds rfl (by rw [deleting]; rfl),trivial⟩
    split at done
    next =>
      cases done; exact ⟨spares,ready'⟩
    next =>
      cases done; exact ⟨(erase_rest (spares.free free)).trans spares,ready'⟩
  next =>
    cases done; exact ⟨spares,ready⟩

theorem writeOut_keeps (admits : Admits s db Q) {written : List Instance} (spares : Spares s db current)
    (ready : ∀ i ∈ heap, Ready s Q i) (done : writeOut current heap = .ok (next,written)) : Spares s db next ∧
    ∀ i ∈ written, Ready s Q i := by
  unfold writeOut at done
  rcases first : emit update current heap with why | ⟨updated,one⟩ <;> simp only [first] at done
  · cases done
  · obtain ⟨spares,ready⟩ := emit_keeps (fun _ _ _ _ => update_keeps admits) spares ready first
    rcases second : emit (insert one) updated one with why | ⟨inserted,two⟩ <;> simp only [second] at done
    · cases done
    · have others : ∀ i ∈ one, Q i := fun i inside => (ready i inside).holds
      obtain ⟨spares,ready⟩ := emit_keeps (fun _ _ _ _ => insert_keeps admits others) spares ready second
      exact emit_keeps (fun _ _ _ _ => erase_keeps admits) spares ready done

/-- The rows of other organizations are as they were in `db`, and the condition holds of the caller's instances. -/
structure Isolated (s : Setting) (db : Database) (Q : Instance → Prop) (w : Session) : Prop where
  stored : Spares s db w.stored
  committed : Spares s db w.committed
  holds : ∀ i ∈ w.heap, Q i

variable {w : Session}

theorem hooked_ready (admits : Admits s db Q) (holds : ∀ i ∈ w.heap, Q i) (done : beforeFlush s w.heap = (heap,none)) :
    ∀ i ∈ heap, Ready s Q i := by
  intro i member
  have there : i ∈ (beforeFlush s w.heap).1 := by
    rw [done]; exact member
  obtain ⟨old,inside,visited⟩ := beforeFlush_found there
  exact ⟨admits.visited visited (holds old inside),beforeFlush_settles done i member⟩

theorem flush_isolated (admits : Admits s db Q) (isolated : Isolated s db Q w) : Isolated s db Q (flush s w).1 := by
  have hooked : ∀ i ∈ (beforeFlush s w.heap).1, Q i := by
    intro i member
    obtain ⟨old,inside,visited⟩ := beforeFlush_found member
    exact admits.visited visited (isolated.holds old inside)
  unfold flush
  rcases hook : beforeFlush s w.heap with ⟨heap,_ | why⟩
  · rw [hook] at hooked
    rcases out : writeOut w.stored heap with why | ⟨stored,written⟩
    · simp only [out]
      exact ⟨isolated.committed,isolated.committed,hooked⟩
    · simp only [out]
      obtain ⟨spares,ready⟩ := writeOut_keeps admits isolated.stored (hooked_ready admits isolated.holds hook) out
      exact ⟨spares,isolated.committed,fun i inside => (ready i inside).holds⟩
  · rw [hook] at hooked
    exact ⟨isolated.stored,isolated.committed,hooked⟩

theorem autoflushed_isolated (admits : Admits s db Q) (isolated : Isolated s db Q w) :
    Isolated s db Q (autoflushed s w).1 := by
  unfold autoflushed
  split
  · exact flush_isolated admits isolated
  · exact isolated

end

section
variable {Q : Instance → Prop}

variable {heap : List Instance}

section
variable (old : ∀ i ∈ heap, Q i)
include old

theorem load_keeps {row : Row} (new : Q (loaded row)) :
    (∀ i ∈ (load heap row).1, Q i) ∧ Q (load heap row).2 := by
  grind only [load,mem_of_find?_eq_some,mem_append,mem_singleton]

theorem loadAll_keeps {rows : List Row} (new : ∀ row ∈ rows, Q (loaded row)) :
    (∀ i ∈ (loadAll heap rows).1, Q i) ∧ ∀ i ∈ (loadAll heap rows).2, Q i := by
  induction rows generalizing heap with
  | nil => exact ⟨old,fun i member => nomatch member⟩
  | cons row rest ih =>
    obtain ⟨heap',one⟩ := load_keeps old (new row mem_cons_self)
    obtain ⟨last,others⟩ := ih heap' (fun r member => new r (mem_cons_of_mem row member))
    grind only [mem_cons,loadAll]

theorem set_keeps {handle : Nat} {next : Instance} (new : Q next) :
    ∀ i ∈ heap.set handle next, Q i := by
  intro i member
  rcases mem_or_eq_of_mem_set member with inside | rfl
  · exact old i inside
  · exact new

theorem append_keeps {next : Instance} (new : Q next) : ∀ i ∈ heap ++ [next], Q i := by
  grind only [mem_append,mem_singleton]

theorem modify_keeps {handle : Nat} {f : Instance → Instance}
    (new : ∀ i, heap[handle]? = some i → Q (f i)) : ∀ i ∈ heap.modify handle f, Q i := by grind [List.getElem?_of_mem]

end

end

/-- A statement with the filter that the scope requires, and beside it only models
    that are not kept by organization. -/
structure Confined (s : Setting) (q : Statement) : Prop where
  filtered : required s q.table = .ok q.org
  shared : ∀ table ∈ q.beside, keyed s table = false

variable {s : Setting} {table : Table} {q : Statement} {row : Row}

theorem select_confined {condition : Row → Bool} {beside : List Table}
    (built : select s table = .ok q) (shared : ∀ t ∈ beside, keyed s t = false) :
    Confined s { q with condition := condition, beside := beside } := by
  unfold select at built
  cases asked : required s table with
  | error why => simp [asked,Except.map] at built
  | ok org =>
    rw [asked] at built
    cases built; exact ⟨asked,shared⟩

theorem Confined.selected_own (confined : Confined s q)
    (passes : (row.table = q.table && q.org.all (fun org => row.org = some org) && q.condition row) = true) :
    foreign s row = false := by grind only [foreign_required,confined.filtered]

theorem Confined.beside_own (confined : Confined s q) (listed : table ∈ q.beside) (is : row.table = table) :
    foreign s row = false := by
  refine foreign_unkeyed ?_
  rw [is]
  exact confined.shared table listed

theorem Confined.result_own (confined : Confined s q) {db : Database} (member : row ∈ q.result db) : row ∈ db.rows ∧
    foreign s row = false := by
  rcases mem_append.mp member with chosen | extra
  all_goals grind only [mem_filter,confined.selected_own,mem_flatMap,cases Confined,foreign,
    Statement.result,Statement.selected]

theorem partitions_ok {guarded : Bool} (asked : partitions s table = .ok guarded) : guarded = keyed s table := by
  grind only [partitions]

theorem mayReturn_own {guarded : Bool} (asked : partitions s row.table = .ok guarded)
    (may : mayReturn s guarded row = .ok true) : foreign s row = false := by
  grind only [mayReturn,orgIdFor,Except.map,foreign_own,partitions_ok,foreign_unkeyed]

section
variable {s : Setting} {db : Database} {Q : Instance → Prop} {w : Session}

theorem holds_nil : ∀ i ∈ ([] : List Instance), Q i := fun _ member => nomatch member

theorem exec_isolated (admits : Admits s db Q) (isolated : Isolated s db Q w) {q : Statement}
    (confined : Confined s q) : Isolated s db Q (exec s w q).1 ∧ ∀ i ∈ (exec s w q).2.instances, Q i := by
  have flushed := autoflushed_isolated admits isolated
  unfold exec
  rcases is : autoflushed s w with ⟨w',_ | why⟩ <;> rw [is] at flushed
  · have new : ∀ row ∈ q.result w'.stored, Q (loaded row) := by
      intro row member
      obtain ⟨inside,own⟩ := confined.result_own member
      exact admits.read (flushed.stored.found inside own)
    have kept := loadAll_keeps flushed.holds new
    exact ⟨⟨flushed.stored,flushed.committed,kept.1⟩,kept.2⟩
  · exact ⟨flushed,holds_nil⟩

theorem get_isolated (admits : Admits s db Q) (isolated : Isolated s db Q w) (table : Table) (key : Nat) :
    Isolated s db Q (get s w table key).1 ∧ ∀ i ∈ (get s w table key).2.instances, Q i := by
  have flushed := autoflushed_isolated admits isolated
  unfold get
  cases asked : partitions s table with
  | error why => exact ⟨isolated,holds_nil⟩
  | ok guarded =>
    cases standing : w.heap.find? (·.standsAt (table,key)) with
    | some i => grind [Answer.instances,cases Isolated]
    | none =>
      rcases is : autoflushed s w with ⟨w',_ | why⟩ <;> rw [is] at flushed <;> simp only
      · cases found : w'.stored.find (table,key) with
        | none => exact ⟨flushed,holds_nil⟩
        | some row =>
          obtain ⟨inside,place⟩ := find_some.mp found
          simp only
          rcases may : mayReturn s guarded row with why | _ | _
          · exact ⟨flushed,holds_nil⟩
          · exact ⟨flushed,holds_nil⟩
          · have own : foreign s row = false := by
              refine mayReturn_own ?_ may
              rw [show row.table = table from congrArg Prod.fst place]
              exact asked
            have kept := load_keeps flushed.holds (admits.read (flushed.stored.found inside own))
            refine ⟨⟨flushed.stored,flushed.committed,kept.1⟩,fun i member => ?_⟩
            obtain rfl : i = _ := by simpa [Answer.instances] using member
            exact kept.2
      · exact ⟨flushed,holds_nil⟩

theorem attached_identity {heap : List Instance} {i : Instance} {state : State} (done : attached heap i = .ok state) :
    state.identity = i.state.identity := by grind only [attached,State.identity]

theorem marked_identity {heap : List Instance} {i : Instance} {state : State} (done : marked heap i = .ok state) :
    state.identity = i.state.identity := by grind only [marked,State.identity]

section
variable (admits : Admits s db Q)
  (isolated : Isolated s db Q w)
  {handle : Nat}
  {i : Instance}
  (held : w.heap[handle]? = some i)
include admits isolated held

theorem add_isolated : Isolated s db Q (add s w handle i).1 ∧ ∀ j ∈ (add s w handle i).2.instances, Q j := by
  have holds := isolated.holds i (mem_of_getElem? held)
  unfold add
  cases stamped : stampOrReject s i with
  | error why => exact ⟨isolated,holds_nil⟩
  | ok next =>
    simp only
    have visited := (stampOrReject_ok stamped).1
    have signed : Visited i (if i.state = .transient then stampAuthor s next else next) := by
      split
      · exact visited.trans (stampAuthor_visited s next).1
      · exact visited
    split
    next =>
      have kept := admits.visited signed holds
      exact ⟨⟨isolated.stored,isolated.committed,set_keeps isolated.holds kept⟩,holds_nil⟩
    next state done =>
      refine ⟨⟨isolated.stored,isolated.committed,set_keeps isolated.holds ?_⟩,holds_nil⟩
      exact admits.same (admits.visited signed holds) rfl (attached_identity done)

theorem delete_isolated : Isolated s db Q (delete s w handle i).1 ∧ ∀ j ∈ (delete s w handle i).2.instances, Q j := by
  have holds := isolated.holds i (mem_of_getElem? held)
  unfold delete
  split
  next => exact ⟨isolated,holds_nil⟩
  next =>
    split
    next =>
      split
      next => exact ⟨isolated,holds_nil⟩
      next state done =>
        have marked : Q { i with state := state } := admits.same holds rfl (marked_identity done)
        exact ⟨⟨isolated.stored,isolated.committed,set_keeps isolated.holds marked⟩,holds_nil⟩
    next => exact ⟨isolated,holds_nil⟩

end

theorem commit_isolated (admits : Admits s db Q) (isolated : Isolated s db Q w) :
    Isolated s db Q (commit s w).1 ∧ ∀ i ∈ (commit s w).2.instances, Q i := by
  have flushed := flush_isolated admits isolated
  unfold commit
  rcases is : flush s w with ⟨w',_ | why⟩ <;> rw [is] at flushed
  · exact ⟨⟨flushed.stored,flushed.stored,flushed.holds⟩,holds_nil⟩
  · exact ⟨flushed,holds_nil⟩

/-- What an action brings to the caller by itself meets the condition, and its statement
    has no model beside its own that is kept by organization. -/
def Brings (s : Setting) (Q : Instance → Prop) (w : Session) : Action → Prop
  | .create row => Q ⟨row,false,.transient⟩
  | .hold row key => Q ⟨row,false,.detached key⟩
  | .assign handle change => ∀ i, w.heap[handle]? = some i → Q { i with row := change.apply i.row, changed := true }
  | .exec _ _ beside => ∀ table ∈ beside, keyed s table = false
  | _ => True

theorem act_isolated (admits : Admits s db Q) (isolated : Isolated s db Q w) {a : Action} (brings : Brings s Q w a) :
    Isolated s db Q (act s w a).1 ∧ ∀ i ∈ (act s w a).2.instances, Q i := by
  cases a with
  | create row => exact ⟨⟨isolated.stored,isolated.committed,append_keeps isolated.holds brings⟩,holds_nil⟩
  | hold row key => exact ⟨⟨isolated.stored,isolated.committed,append_keeps isolated.holds brings⟩,holds_nil⟩
  | assign handle change => exact ⟨⟨isolated.stored,isolated.committed,modify_keeps isolated.holds brings⟩,holds_nil⟩
  | exec table condition beside =>
    simp only [act]
    cases built : select s table with
    | error why => exact ⟨isolated,holds_nil⟩
    | ok q => exact exec_isolated admits isolated (select_confined built brings)
  | get table key => exact get_isolated admits isolated table key
  | add handle =>
    simp only [act]
    cases held : w.heap[handle]? with
    | none => exact ⟨isolated,holds_nil⟩
    | some i => exact add_isolated admits isolated held
  | delete handle =>
    simp only [act]
    cases held : w.heap[handle]? with
    | none => exact ⟨isolated,holds_nil⟩
    | some i => exact delete_isolated admits isolated held
  | flush =>
    have flushed := flush_isolated admits isolated
    simp only [act]
    rcases is : flush s w with ⟨w',_ | why⟩ <;> rw [is] at flushed
    all_goals exact ⟨flushed,holds_nil⟩
  | commit => exact commit_isolated admits isolated

structure Contained (s : Setting) (db : Database) (Q : Instance → Prop) (h : History) : Prop where
  session : Isolated s db Q h.session
  answers : ∀ answer ∈ h.answers, ∀ i ∈ answer.instances, Q i

theorem contained_opened : Contained s db Q (opened db) :=
  ⟨⟨rfl,rfl,holds_nil⟩,fun _ member => nomatch member⟩

theorem contained_step (admits : Admits s db Q) {h : History} {a : Action} (contained : Contained s db Q h)
    (brings : Brings s Q h.session a) : Contained s db Q (step s h a) := by
  obtain ⟨isolated,answered⟩ := act_isolated admits contained.session brings
  have logged : ∀ {last : Answer}, (∀ i ∈ last.instances, Q i) →
      ∀ answer ∈ h.answers ++ [last], ∀ i ∈ answer.instances, Q i := by
    intro last new
    exact forall_mem_append.mpr ⟨contained.answers,forall_mem_singleton.mpr new⟩
  unfold step
  split
  · exact ⟨contained.session,logged holds_nil⟩
  · exact ⟨isolated,logged answered⟩

end

end Cowork.ScopedSession
