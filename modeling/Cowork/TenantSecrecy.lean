import Cowork.TenantIsolation

/-!
What a scoped session's answers tell of the rows of other organizations. A session whose
caller takes no key of theirs does what it would do without those rows (`step_hide`).
Primary keys are shared by all, so a caller that takes one learns of it.
-/
namespace Cowork.ScopedSession
open KeyedRows Transitions List

def hide (s : Setting) (db : Database) : Database := db.keep (fun row => !foreign s row)

def veiled (s : Setting) (w : Session) : Session :=
  { w with stored := hide s w.stored, committed := hide s w.committed }

structure Known (s : Setting) (db : Database) (i : Instance) : Prop where
  apart : Apart s db i
  free : Free s db i.row.place

theorem known_admits (s : Setting) (db : Database) : Admits s db (Known s db) where
  apart known := known.apart
  same := by
    intro i next known place identity
    refine ⟨fun key is => ?_,place ▸ known.free⟩
    rw [show next.row.table = i.row.table from congrArg Prod.fst place]
    exact known.apart key (identity ▸ is)
  read := by
    intro row free
    refine ⟨fun key is => ?_,free⟩
    cases is; exact free

section
variable {s : Setting} {db : Database}

variable {current : Database} {i : Instance}

theorem find_hide {place : Table × Nat} (free : Free s current place) : (hide s current).find place = current.find place :=
  find_keep_pass free

theorem replace_hide {place : Table × Nat} {row : Row} (free : Free s current place) (target : Free s current row.place)
    (own : foreign s row = false) : (hide s current).replace place row = (current.replace place row).map (hide s) :=
  replace_keep free target (by simp [own])

theorem update_hide (spares : Spares s db current) (ready : Ready s (Known s db) i) : update (hide s current) i =
    (update current i).map (Prod.map (hide s) id) := by
  unfold update
  split
  next key persistent =>
    split
    next changed =>
      have own : foreign s i.row = false := by
        have settled := ready.settled
        rw [Settled,persistent] at settled
        exact settled changed
      have free : Free s current (i.row.table,key) := spares.free (ready.holds.apart key (by rw [persistent]; rfl))
      rw [find_hide free,replace_hide free (spares.free ready.holds.free) own]
      cases current.find (i.row.table,key) with
      | none => rfl
      | some old => cases current.replace (i.row.table,key) i.row <;> rfl
    next => rfl
  next => rfl

theorem insert_hide {heap : List Instance} (spares : Spares s db current) (ready : Ready s (Known s db) i) :
    insert heap (hide s current) i = (insert heap current i).map (Prod.map (hide s) id) := by
  unfold insert
  split
  next pending =>
    have own : foreign s i.row = false := by
      have settled := ready.settled
      rwa [Settled,pending] at settled
    have free : Free s current i.row.place := spares.free ready.holds.free
    have inserted : (hide s current).insert i.row = (current.insert i.row).map (hide s) :=
      insert_keep free (by simp [own])
    rw [find_hide free,replace_hide free free own,inserted]
    split
    · cases current.find i.row.place with
      | none => rfl
      | some old => cases current.replace i.row.place i.row <;> rfl
    · cases current.insert i.row <;> rfl
  next => rfl

theorem erase_hide {heap : List Instance} :
    erase heap (hide s current) i = (erase heap current i).map (Prod.map (hide s) id) := by
  unfold erase
  split
  next key deleting =>
    split
    · rfl
    · rw [hide,erase_keep]; rfl
  next => rfl

end

theorem emit_project {f : Database → Database} {P : Database → Prop} {Q R : Instance → Prop}
    {write : Database → Instance → Except Refusal (Database × Instance)}
    (keep : ∀ db i next j, P db → Q i → write db i = .ok (next,j) → P next ∧ R j)
    (commutes : ∀ db i, P db → Q i → write (f db) i = (write db i).map (Prod.map f id)) {db : Database}
    {heap : List Instance} (holds : P db) (all : ∀ i ∈ heap, Q i) :
    emit write (f db) heap = (emit write db heap).map (Prod.map f id) := by
  induction heap generalizing db with
  | nil => rfl
  | cons i rest ih =>
    have one := all i mem_cons_self
    unfold emit
    rw [commutes db i holds one]
    rcases first : write db i with why | ⟨next,j⟩
    · rfl
    · simp only [Except.map,Prod.map]
      rw [ih (keep db i next j holds one first).1 (fun k member => all k (mem_cons_of_mem i member))]
      rcases emit write next rest with why | ⟨last,others⟩ <;> rfl

section
variable {s : Setting} {db : Database} {w : Session}

theorem writeOut_hide {current : Database} {heap : List Instance} (spares : Spares s db current)
    (ready : ∀ i ∈ heap, Ready s (Known s db) i) :
    writeOut (hide s current) heap = (writeOut current heap).map (Prod.map (hide s) id) := by
  have admits := known_admits s db
  unfold writeOut
  rw [emit_project (fun _ _ _ _ => update_keeps admits) (fun _ _ => update_hide) spares ready]
  rcases first : emit update current heap with why | ⟨updated,one⟩
  · rfl
  · obtain ⟨spares,ready⟩ := emit_keeps (fun _ _ _ _ => update_keeps admits) spares ready first
    have others : ∀ i ∈ one, Known s db i := fun i inside => (ready i inside).holds
    simp only [Except.map,Prod.map,id]
    rw [emit_project (fun _ _ _ _ => insert_keeps admits others) (fun _ _ => insert_hide) spares ready]
    rcases second : emit (insert one) updated one with why | ⟨inserted,two⟩
    · rfl
    · obtain ⟨spares,ready⟩ := emit_keeps (fun _ _ _ _ => insert_keeps admits others) spares ready second
      exact emit_project (fun _ _ _ _ => erase_keeps admits) (fun _ _ _ _ => erase_hide) spares ready

theorem flush_hide (isolated : Isolated s db (Known s db) w) :
    flush s (veiled s w) = (veiled s (flush s w).1,(flush s w).2) := by
  unfold flush
  simp only [veiled]
  rcases hook : beforeFlush s w.heap with ⟨heap,_ | why⟩
  · simp only
    rw [writeOut_hide isolated.stored (hooked_ready (known_admits s db) isolated.holds hook)]
    rcases writeOut w.stored heap with why | ⟨stored,written⟩ <;> rfl
  · rfl

theorem autoflushed_hide (isolated : Isolated s db (Known s db) w) :
    autoflushed s (veiled s w) = (veiled s (autoflushed s w).1,(autoflushed s w).2) := by
  unfold autoflushed
  split
  · exact flush_hide isolated
  · rfl

theorem Confined.result_hide {q : Statement} (confined : Confined s q) (current : Database) :
    q.result (hide s current) = q.result current := by
  have selected : q.selected (hide s current) = q.selected current := by
    grind only [Statement.selected,hide,Rows.keep,filter_filter,confined.selected_own]
  have beside : ∀ table ∈ q.beside, (hide s current).rows.filter (fun row => row.table = table) =
      current.rows.filter (fun row => row.table = table) := by
    intro table listed
    unfold hide Rows.keep
    rw [filter_filter]
    refine filter_congr (fun row _ => ?_)
    by_cases is : row.table = table
    · simp [confined.beside_own listed is]
    · simp [is]
  unfold Statement.result
  rw [selected]
  congr 2
  exact flatMap_congr beside

theorem exec_hide (isolated : Isolated s db (Known s db) w) {q : Statement} (confined : Confined s q) :
    exec s (veiled s w) q = (veiled s (exec s w q).1,(exec s w q).2) := by
  unfold exec
  rw [autoflushed_hide isolated]
  rcases autoflushed s w with ⟨w',_ | why⟩
  · simp only [veiled,confined.result_hide]
  · rfl

theorem mayReturn_foreign {guarded : Bool} {row : Row} (asked : partitions s row.table = .ok guarded)
    (readable : (orgIdFor s row.table).isOk = true) (other : foreign s row = true) :
    mayReturn s guarded row = .ok false := by
  unfold foreign at other
  rw [Bool.and_eq_true] at other
  have is : guarded = true := (partitions_ok asked).trans other.1
  cases own : orgIdFor s row.table with
  | error why => rw [own] at readable; cases readable
  | ok org =>
    cases held : row.org with
    | none => simp [held] at other
    | some their =>
      have differs : their ≠ org := by simpa [own,held] using other.2
      simp [mayReturn,is,own,Except.map,held,differs]

theorem get_hide (isolated : Isolated s db (Known s db) w) {table : Table} {key : Nat}
    (readable : keyed s table = true → (orgIdFor s table).isOk = true) :
    get s (veiled s w) table key = (veiled s (get s w table key).1,(get s w table key).2) := by
  unfold get
  cases asked : partitions s table with
  | error why => rfl
  | ok guarded =>
    simp only [show (veiled s w).heap = w.heap from rfl]
    cases standing : w.heap.find? (·.standsAt (table,key)) with
    | some i =>
      simp only
      cases mayReturn s guarded i.row <;> rfl
    | none =>
      rw [autoflushed_hide isolated]
      rcases autoflushed s w with ⟨w',_ | why⟩
      · simp only [veiled]
        rw [hide,find_keep]
        cases found : w'.stored.find (table,key) with
        | none => rfl
        | some row => grind only [find_some,foreign,Option.filter_some,mayReturn_foreign,Row.place,hide]
      · rfl

theorem add_hide (handle : Nat) (i : Instance) :
    add s (veiled s w) handle i = (veiled s (add s w handle i).1,(add s w handle i).2) := by
  unfold add
  simp only [veiled]
  cases stampOrReject s i with
  | error why => rfl
  | ok next =>
    simp only
    split <;> rfl

theorem delete_hide (handle : Nat) (i : Instance) :
    delete s (veiled s w) handle i = (veiled s (delete s w handle i).1,(delete s w handle i).2) := by
  unfold delete
  simp only [veiled]
  cases required s i.row.table with
  | error why => rfl
  | ok org =>
    simp only
    split
    · cases marked w.heap i <;> rfl
    · rfl

theorem commit_hide (isolated : Isolated s db (Known s db) w) :
    commit s (veiled s w) = (veiled s (commit s w).1,(commit s w).2) := by
  unfold commit
  rw [flush_hide isolated]
  rcases flush s w with ⟨w',_ | why⟩ <;> rfl

/-- The caller chains to a statement no other model that is kept by organization, and has
    from elsewhere no instance of another organization's row. -/
def Tame (s : Setting) (h : History) : Action → Prop
  | .exec _ _ beside => ∀ table ∈ beside, keyed s table = false
  | .hold row key => Free s h.session.stored (row.table,key)
  | _ => True

/-- The caller also gives its instances no key of another organization's row, and gets
    rows by their key only from tables whose column can hold the scope's organization. -/
def Careful (s : Setting) (h : History) : Action → Prop
  | .create row => Free s h.session.stored row.place
  | .hold row key => Free s h.session.stored (row.table,key) ∧ Free s h.session.stored row.place
  | .assign handle (.key value) => ∀ i ∈ h.session.heap[handle]?, Free s h.session.stored (i.row.table,value)
  | .get table _ => keyed s table = true → (orgIdFor s table).isOk = true
  | .exec _ _ beside => ∀ table ∈ beside, keyed s table = false
  | _ => True

theorem apart_admits (s : Setting) (db : Database) : Admits s db (Apart s db) where
  apart := id
  same := by grind only [Apart,Row.place]
  read := by
    intro row free key is
    cases is; exact free

variable {h : History} {a : Action}

theorem tame_brings (contained : Contained s db (Apart s db) h) (tame : Tame s h a) : Brings s (Apart s db) h.session a := by
  cases a with
  | create row => exact fun key is => nomatch is
  | hold row key =>
    intro k is
    cases is; exact contained.session.stored.back tame
  | assign handle change =>
    intro i held key is
    have apart := contained.session.holds i (mem_of_getElem? held)
    cases change <;> exact apart key is
  | exec table condition beside => exact tame
  | _ => trivial

theorem careful_brings (contained : Contained s db (Known s db) h) (careful : Careful s h a) :
    Brings s (Known s db) h.session a := by
  have stored := contained.session.stored
  cases a with
  | create row => exact ⟨fun _ is => (nomatch is),stored.back careful⟩
  | hold row key =>
    refine ⟨fun k is => ?_,stored.back careful.2⟩
    cases is; exact stored.back careful.1
  | assign handle change =>
    intro i held
    have known := contained.session.holds i (mem_of_getElem? held)
    cases change with
    | key value => exact ⟨known.apart,stored.back (careful i held)⟩
    | org value | createdBy value | data value => exact ⟨known.apart,known.free⟩
  | exec table condition beside => exact careful
  | _ => trivial

def veil (s : Setting) (h : History) : History := ⟨veiled s h.session,h.answers⟩

theorem act_hide (contained : Contained s db (Known s db) h) (careful : Careful s h a) : act s (veiled s h.session) a =
    (veiled s (act s h.session a).1,(act s h.session a).2) := by
  have isolated := contained.session
  cases a with
  | create row | hold row key | assign handle change => rfl
  | exec table condition beside => grind only [act,exec_hide,select_confined,cases Isolated,Careful]
  | get table key => exact get_hide isolated careful
  | add handle => grind only [act,veiled,add_hide]
  | delete handle => grind only [act,veiled,delete_hide]
  | flush =>
    simp only [act]
    rw [flush_hide isolated]
    rcases flush s h.session with ⟨w',_ | why⟩ <;> rfl
  | commit => exact commit_hide isolated

theorem step_hide (contained : Contained s db (Known s db) h) (careful : Careful s h a) :
    veil s (step s h a) = step s (veil s h) a := by grind only [step,veil,act_hide,veiled]

theorem answers_hide {inputs : List Action} (careful : Permitted (step s) (Careful s) (opened db) inputs) :
    (reach (step s) (opened db) inputs).answers = (reach (step s) (opened (hide s db)) inputs).answers := by
  have keep : ∀ h a, Contained s db (Known s db) h → Careful s h a → Contained s db (Known s db) (step s h a) :=
    fun h a contained careful => contained_step (known_admits s db) contained (careful_brings contained careful)
  have same := reach_project keep (fun h a => step_hide) contained_opened careful
  show (veil s (reach (step s) (opened db) inputs)).answers = _
  rw [same]
  rfl

end

instance tameDecidable (s : Setting) (h : History) (a : Action) : Decidable (Tame s h a) := by
  cases a <;> unfold Tame <;> infer_instance

instance carefulDecidable (s : Setting) (h : History) (a : Action) : Decidable (Careful s h a) := by
  unfold Careful
  split <;> infer_instance

/-- A tame caller leaves the rows of other organizations as they were and is handed none of them; a careful one gets
    answers that do not depend on them. -/
theorem session_keeps_to_its_organization (s : Setting) (db : Database) :
    (∀ inputs, Permitted (step s) (Tame s) (opened db) inputs →
      Spares s db (reach (step s) (opened db) inputs).session.stored ∧
      Spares s db (reach (step s) (opened db) inputs).session.committed ∧
      ∀ answer ∈ (reach (step s) (opened db) inputs).answers, ∀ i ∈ answer.instances, Apart s db i) ∧
    ∀ other, hide s db = hide s other → ∀ inputs, Permitted (step s) (Careful s) (opened db) inputs →
      Permitted (step s) (Careful s) (opened other) inputs →
      (reach (step s) (opened db) inputs).answers = (reach (step s) (opened other) inputs).answers := by
  constructor
  · intro inputs tame
    have keep : ∀ h a, Contained s db (Apart s db) h → Tame s h a → Contained s db (Apart s db) (step s h a) :=
      fun h a contained tame => contained_step (apart_admits s db) contained (tame_brings contained tame)
    have contained := invariant_reach keep contained_opened tame
    exact ⟨contained.session.stored,contained.session.committed,contained.answers⟩
  · intro other same inputs careful careful'
    rw [answers_hide careful,answers_hide careful',same]

def conversations : Table := ⟨"conversations",true,false,true⟩
def projects : Table := ⟨"projects",true,false,true⟩

def hosted : Setting := ⟨{ orgMode := true, orgId := some "acme", userId := some "ann" },fun _ => none,false⟩

def ours : Row := ⟨conversations,1,some (.text "acme"),some "ann",10⟩
def theirs : Row := ⟨conversations,7,some (.text "globex"),some "bob",20⟩
def theirProject : Row := ⟨projects,3,some (.text "globex"),none,30⟩

def plainCalls : List Action :=
  [.exec conversations (fun _ => true) [],.get conversations 7,.assign 0 (.data 11),.assign 0 (.org none),
    .create ⟨conversations,2,none,none,12⟩,.add 1,.commit,.exec conversations (fun _ => true) [],.delete 0,.flush]

theorem plainCalls_tell_nothing :
    (Permitted (step hosted) (Tame hosted) (opened ⟨[ours,theirs],by decide⟩) plainCalls ∧
      Spares hosted ⟨[ours,theirs],by decide⟩
        (reach (step hosted) (opened ⟨[ours,theirs],by decide⟩) plainCalls).session.stored) ∧
    hide hosted ⟨[ours,theirs],by decide⟩ = hide hosted ⟨[ours],by decide⟩ ∧
    (reach (step hosted) (opened ⟨[ours,theirs],by decide⟩) plainCalls).answers =
      (reach (step hosted) (opened ⟨[ours],by decide⟩) plainCalls).answers ∧
    (reach (step hosted) (opened ⟨[ours,theirs],by decide⟩) plainCalls).session.stored.rows =
      [theirs,⟨conversations,2,some (.text "acme"),some "ann",12⟩] :=
  ⟨⟨by decide +kernel,((session_keeps_to_its_organization hosted _).1 plainCalls (by decide +kernel)).1⟩,
    by decide +kernel,
    (session_keeps_to_its_organization hosted _).2 _ (by decide +kernel) plainCalls (by decide +kernel)
      (by decide +kernel),
    by decide +kernel⟩

def takenKey : List Action := [.create ⟨conversations,7,none,none,12⟩,.add 0,.flush]

/-- Another organization's row that was loaded elsewhere is given the session's organization and added. -/
def claimedRow : List Action := [.hold theirs 7,.assign 0 (.org (some (.text "acme"))),.add 0,.flush]

def chainedModel : List Action := [.exec conversations (fun _ => true) [projects]]

/-- Two databases with the same rows otherwise answer a taken key differently; a claimed row of
    another organization is changed; a chained model's rows are returned whoever they belong to. -/
theorem others_rows_show_through :
    (hide hosted ⟨[theirs],by decide⟩ = hide hosted ⟨[],by decide⟩ ∧
      (reach (step hosted) (opened ⟨[theirs],by decide⟩) takenKey).answers = [.done,.done,.raised .integrity] ∧
      (reach (step hosted) (opened ⟨[],by decide⟩) takenKey).answers = [.done,.done,.done]) ∧
    (foreign hosted theirs = true ∧
      (reach (step hosted) (opened ⟨[theirs],by decide⟩) claimedRow).session.stored.rows =
        [{ theirs with org := some (.text "acme") }]) ∧
    foreign hosted theirProject = true ∧
      (reach (step hosted) (opened ⟨[ours,theirProject],by decide⟩) chainedModel).answers =
        [.rows [loaded ours,loaded theirProject]] :=
  ⟨⟨by decide +kernel,by decide +kernel,by decide +kernel⟩,⟨by decide +kernel,by decide +kernel⟩,by decide +kernel,
    by decide +kernel⟩

end Cowork.ScopedSession
