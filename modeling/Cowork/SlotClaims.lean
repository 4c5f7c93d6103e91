import Cowork.Scheduler
import Cowork.Transitions

/-!
The claim on a slot. At most one turn is started for it if the conversation of a run in
progress is not deleted and no run gives back a slot whose turn has started. A delete
takes away what the reaper tells a started run by (`deleted_conversation_runs_twice`).
-/
namespace Cowork.SlotClaims
open Schedules Scheduler Transitions List

section
variable {calendar : Calendar} {world : World} {process : Process} {p : Nat} {action : Action}

structure Later (run run' : Run) : Prop where
  linked : run.linked = true → run'.linked = true
  lost : run.status ≠ .running → run'.status ≠ .running ∧ run'.linked = run.linked

variable {run row' : Run} {world' : World} {k : Nat} {before after : List Run}

theorem aged_later {run' : Run} (aged : Aged run run') : Later run run' :=
  ⟨fun linked => aged.linked ▸ linked,fun ended => ⟨fun running => ended (aged.running running).1,aged.linked⟩⟩

theorem moves_later (moves : Moves world action world') (found : world.db.runs[k]? = some run) :
    ∃ run', world'.db.runs[k]? = some run' ∧ Later run run' := by
  have stays : Later run run := aged_later (Aged.refl run)
  -- a row that is replaced, and the others beside it
  have replaced : ∀ (j : Nat) (row row' : Run), world.db.runs[j]? = some row → Later row row' →
      ∃ run', (world.db.runs.set j row')[k]? = some run' ∧ Later run run' := by grind -linarith
  cases moves with
  | spawns started runs | leaves p process phase there runs | begins p j conversation process there linked runs =>
    exact ⟨run,runs ▸ found,stays⟩
  | ages starts processes aged =>
    have rows := aged k
    grind -linarith only [aged_later]
  | inserts p process there due free row runs => exact ⟨run,by grind -linarith,stays⟩
  | links p j conversation process row row' there made foundRow running runs _ _ _ _ now =>
    rw [runs]
    exact replaced j row row' foundRow ⟨fun _ => now,fun ended => absurd running ended⟩
  | finishes p j process there own starts processes gone rows =>
    cases foundRow : world.db.runs[j]? with
    | none => exact ⟨run,gone foundRow ▸ found,stays⟩
    | some row =>
      obtain ⟨row',runs,aged,_⟩ := rows row foundRow
      rw [runs]; exact replaced j row row' foundRow (aged_later aged)

def Lost (k : Nat) (world : World) : Prop :=
  ∃ run, world.db.runs[k]? = some run ∧ run.status ≠ .running ∧ run.linked = false

def Linked (world : World) (k : Nat) : Prop := ∃ run, world.db.runs[k]? = some run ∧ run.linked = true

structure Traced (world : World) : Prop where
  past : ∀ process ∈ world.processes, ∀ k, process.phase.run = some k → process.phase.past = true → Linked world k
  starts : ∀ k ∈ world.starts, Linked world k

theorem moves_linked (moves : Moves world action world') (linked : Linked world k) : Linked world' k := by
  obtain ⟨run,found,isLinked⟩ := linked
  obtain ⟨run',found',later⟩ := moves_later moves found
  exact ⟨run',found',later.linked isLinked⟩

theorem lost_step (lost : Lost k world) : Lost k (step calendar world action) := by
  obtain ⟨run,found,ended,unlinked⟩ := lost
  obtain ⟨run',found',later⟩ := moves_later (step_moves calendar world action) found
  obtain ⟨ended',same⟩ := later.lost ended
  exact ⟨run',found',ended',same.trans unlinked⟩

theorem traced_step (traced : Traced world) : Traced (step calendar world action) := by
  have moves := step_moves calendar world action
  have stays : ∀ {k}, Linked world k → Linked (step calendar world action) k := moves_linked moves
  -- the processes after one of them turned to another phase
  have turned : ∀ (p : Nat) (next : Process), (∀ k, next.phase.run = some k → next.phase.past = true →
      Linked (step calendar world action) k) → ∀ process ∈ world.processes.set p next, ∀ k,
      process.phase.run = some k → process.phase.past = true → Linked (step calendar world action) k := by
    intro p next own process member k run past
    obtain old | rfl := mem_or_eq_of_mem_set member
    · exact stays (traced.past process old k run past)
    · exact own k run past
  have before : ∀ k ∈ world.starts, Linked (step calendar world action) k := fun k member => stays (traced.starts k member)
  cases moves with
  | spawns started runs starts processes due =>
    refine ⟨?_,starts ▸ before⟩
    grind -linarith only [mem_append,cases Traced,Phase.past]
  | ages starts processes =>
    refine ⟨?_,starts ▸ before⟩
    rw [processes]
    exact fun process member k run past => stays (traced.past process member k run past)
  | leaves p process phase there runs starts processes same notPast =>
    exact ⟨processes ▸ turned p _ fun k _ past => absurd (notPast.symm.trans past) Bool.false_ne_true,starts ▸ before⟩
  | inserts p process there due free row runs starts processes | finishes p j process there own starts processes =>
    exact ⟨processes ▸ turned p _ fun k _ past => (by cases past),starts ▸ before⟩
  | links p j conversation process row row' there made found running runs starts processes _ _ now =>
    refine ⟨processes ▸ turned p _ fun k own _ => ?_,starts ▸ before⟩
    cases own; exact ⟨row',by rw [runs,List.getElem?_set_self',found]; rfl,now⟩
  | begins p j conversation process there linked runs starts processes =>
    have own : Linked world j :=
      traced.past process (mem_of_getElem? there) j (by rw [linked]; rfl) (by rw [linked]; rfl)
    refine ⟨processes ▸ turned p _ fun k same _ => ?_,starts ▸ fun k member => ?_⟩
    all_goals grind -linarith only [mem_append,mem_singleton,Phase.run]

theorem lost_never_starts (traced : Traced world) (lost : Lost k world) (more : List Action) :
    k ∉ (reach (step calendar) world more).starts := by
  intro started
  obtain ⟨run,found,_,unlinked⟩ := always_reach (fun _ _ => lost_step) lost more
  obtain ⟨run',found',linked⟩ := (always_reach (fun _ _ => traced_step) traced more).starts k started
  cases found.symm.trans found'
  exact Bool.false_ne_true (unlinked.symm.trans linked)

structure Table (runs : List Run) : Prop where
  unique : ∀ {i j : Nat} {a b : Run} {slot : Int}, runs[i]? = some a → runs[j]? = some b → a.schedule = b.schedule →
    a.slotAt = some slot → b.slotAt = some slot → i = j
  whole : ∀ run ∈ runs, run.status = .running → run.slotAt = run.claimed
  held : Held runs

theorem rows_forth {R : Run → Run → Prop} (rows : Rows R before after) (found : before[k]? = some run) :
    ∃ run', after[k]? = some run' ∧ R run run' := by
  have both := rows k
  grind -linarith only

theorem rows_mono {R S : Run → Run → Prop} (weaker : ∀ {run run'}, R run run' → S run run')
    (rows : Rows R before after) : Rows S before after := by grind -linarith only [Rows]

theorem Table.rows (table : Table before) (rows : Rows Slots before after) (held : Held after) : Table after := by
  refine ⟨fun {i j a b slot} foundA foundB same slotA slotB => ?_,fun run member running => ?_,held⟩
  all_goals grind -linarith [List.getElem?_of_mem,cases Table,Rows,cases Slots]

theorem Table.insert {runs : List Run} (table : Table runs) (whole : run.slotAt = run.claimed)
    (unlinked : run.linked = false) (free : ∀ slot, run.slotAt = some slot → ∀ other ∈ runs,
    other.schedule = run.schedule → other.slotAt ≠ some slot) : Table (runs ++ [run]) := by
  obtain ⟨unique,wholes,held⟩ := table
  refine ⟨fun {i j a b slot} => ?_,?_,?_⟩
  · grind -linarith
  · grind -linarith
  · unfold Held at held ⊢
    grind -linarith

theorem held_set {runs : List Run} {run' : Run} (held : Held runs)
    (own : run'.linked = true → run'.status = .running → run'.conversationId ≠ none) : Held (runs.set k run') := by
  intro run member
  obtain old | rfl := mem_or_eq_of_mem_set member
  · exact held run old
  · exact own

theorem held_kept (aged : Rows Aged before after) (kept : Rows Kept before after) : Held after := by
  grind -linarith only [List.getElem?_of_mem,Held,Rows,cases Aged,cases Kept]

structure Mine (starts : List Nat) (process : Process) (k : Nat) (run : Run) : Prop where
  claimed : run.claimed = process.slot
  past : process.phase.past = true → run.linked = true ∧ run.slotAt = run.claimed
  started : k ∈ starts → process.started = true

/-- A run belongs to one process, early processes started no turn, and runs whose turns were started keep slots. -/
structure Orderly (world : World) : Prop where
  table : Table world.db.runs
  apart : ∀ {p q k : Nat} {a b : Process}, world.processes[p]? = some a → world.processes[q]? = some b →
    a.phase.run = some k → b.phase.run = some k → p = q
  mine : ∀ process ∈ world.processes, ∀ k, process.phase.run = some k →
    ∃ run, world.db.runs[k]? = some run ∧ Mine world.starts process k run
  early : ∀ process ∈ world.processes, process.phase.early = true → process.started = false
  kept : ∀ k ∈ world.starts, ∃ run, world.db.runs[k]? = some run ∧ run.linked = true ∧ run.slotAt = run.claimed
  once : world.starts.Nodup

section
variable (orderly : Orderly world)
include orderly

theorem Orderly.spawns {started : List Process} (runs : world'.db.runs = world.db.runs)
    (starts : world'.starts = world.starts) (processes : world'.processes = world.processes ++ started)
    (due : ∀ process ∈ started, process.phase = .due ∧ process.started = false) : Orderly world' := by
  obtain ⟨table,apart,mine,early,kept,once⟩ := orderly
  have noRun : ∀ process ∈ started, ∀ k, process.phase.run ≠ some k := by
    intro process new k own
    rw [(due process new).1] at own; cases own
  refine ⟨runs ▸ table,fun {p q k a b} => ?_,?_,?_,?_,starts ▸ once⟩
  · grind -linarith
  · grind -linarith
  · grind -linarith
  · rwa [starts,runs]

theorem Orderly.ages (starts : world'.starts = world.starts)
    (processes : world'.processes = world.processes) (aged : Rows Aged world.db.runs world'.db.runs)
    (kept : Rows Kept world.db.runs world'.db.runs) : Orderly world' := by
  -- a linked run has its slot afterwards if it had it before
  have slot : ∀ {k : Nat} {run : Run}, world.db.runs[k]? = some run → ∃ run', world'.db.runs[k]? = some run' ∧
      run'.claimed = run.claimed ∧ (run.linked = true ∧ run.slotAt = run.claimed →
        run'.linked = true ∧ run'.slotAt = run'.claimed) := by
    intro k run found
    obtain ⟨run',found',same⟩ := rows_forth aged found
    obtain ⟨row,found'',keeps⟩ := rows_forth kept found
    cases found'.symm.trans found''
    refine ⟨run',found',same.claimed,fun ⟨linked,whole⟩ => ⟨same.linked.trans linked,?_⟩⟩
    rw [keeps.slotAt linked,whole,same.claimed]
  refine ⟨orderly.table.rows (rows_mono Aged.toSlots aged) (held_kept aged kept),?_,?_,?_,?_,starts ▸ orderly.once⟩
  · rw [processes]; exact orderly.apart
  · rw [processes,starts]
    intro process member k own
    obtain ⟨run,found,mine⟩ := orderly.mine process member k own
    obtain ⟨run',found',claimed,keeps⟩ := slot found
    exact ⟨run',found',claimed.trans mine.claimed,fun past => keeps (mine.past past),mine.started⟩
  all_goals grind -linarith only [orderly.early,orderly.kept]

theorem Orderly.turned {p : Nat} {process next : Process}
    (there : world.processes[p]? = some process) (processes : world'.processes = world.processes.set p next)
    (table : Table world'.db.runs) (once : world'.starts.Nodup)
    (same : ∀ k, next.phase.run = some k → process.phase.run = some k ∨ world.db.runs[k]? = none)
    (own : ∀ k, next.phase.run = some k → ∃ run, world'.db.runs[k]? = some run ∧ Mine world'.starts next k run)
    (others : ∀ q other k run, q ≠ p → world.processes[q]? = some other → other.phase.run = some k →
    world.db.runs[k]? = some run → Mine world.starts other k run → ∃ run', world'.db.runs[k]? = some run' ∧
    Mine world'.starts other k run') (early : next.phase.early = true → next.started = false)
    (kept : ∀ k ∈ world'.starts, ∃ run, world'.db.runs[k]? = some run ∧ run.linked = true ∧ run.slotAt = run.claimed) :
    Orderly world' := by
  -- the run of the process that turned is no other's
  have alone : ∀ {q k : Nat} {other : Process}, q ≠ p → world.processes[q]? = some other →
      other.phase.run = some k → next.phase.run ≠ some k := by
    intro q k other differ found run nextRun
    obtain before | fresh := same k nextRun
    · exact differ (orderly.apart found there run before)
    · obtain ⟨row,present,_⟩ := orderly.mine other (mem_of_getElem? found) k run
      rw [fresh] at present; cases present
  refine ⟨table,fun {q r k a b} => ?_,?_,?_,kept,once⟩
  · have before := @orderly.apart q r k a b
    grind -linarith
  · rw [processes]
    intro other member k run
    obtain ⟨q,found⟩ := List.getElem?_of_mem member
    obtain ⟨rfl,rfl⟩ | ⟨differ,old⟩ := set_found found
    all_goals grind -linarith only [mem_of_getElem?,cases Orderly]
  grind -linarith only [mem_or_eq_of_mem_set,orderly.early]

theorem Orderly.inserts (there : world.processes[p]? = some process) (due : process.phase = .due)
    (free : ∀ slot ∈ process.slot, world.db.slotTaken process.schedule slot = false)
    (runs : world'.db.runs = world.db.runs ++ [run]) (starts : world'.starts = world.starts)
    (processes : world'.processes = world.processes.set p { process with phase := .claimed world.db.runs.length })
    (row : run.schedule = process.schedule ∧ run.slotAt = process.slot ∧ run.claimed = process.slot ∧
      run.linked = false) : Orderly world' := by
  obtain ⟨schedule,slotAt,claimed,unlinked⟩ := row
  have fresh : world.db.runs[world.db.runs.length]? = none := List.getElem?_eq_none (Nat.le_refl _)
  have stays : ∀ {k : Nat} {other : Run}, world.db.runs[k]? = some other → world'.db.runs[k]? = some other := by
    grind -linarith only [List.getElem?_eq_some_iff,List.getElem?_append_left]
  refine orderly.turned there processes ?_ (starts ▸ orderly.once) ?_ ?_ ?_ ?_ ?_
  · rw [runs]
    refine orderly.table.insert (slotAt.trans claimed.symm) unlinked ?_
    intro slot claims other member same taken
    have isFree := free slot (slotAt ▸ claims)
    rw [Db.slotTaken,any_eq_false] at isFree
    exact isFree other member (by simp [same,schedule,taken])
  · intro k new
    cases new; exact .inr fresh
  · intro k new
    cases new
    refine ⟨run,by rw [runs,List.getElem?_concat_length],claimed,fun past => Bool.noConfusion past,?_⟩
    intro started
    obtain ⟨other,found,_⟩ := orderly.kept _ (starts ▸ started)
    rw [fresh] at found; cases found
  · intro q other k found differ _ own present mine; exact ⟨found,stays present,starts ▸ mine⟩
  · intro _; exact orderly.early process (mem_of_getElem? there) (by rw [due]; rfl)
  · rw [starts]
    intro k started
    obtain ⟨other,found,had⟩ := orderly.kept k started
    exact ⟨other,stays found,had⟩

theorem Orderly.besides (there : world.processes[p]? = some process)
    (own : process.phase.run = some k) {q j : Nat} {other : Process} (differ : q ≠ p)
    (found : world.processes[q]? = some other) (run_ : other.phase.run = some j)
    (present : world.db.runs[j]? = some run) : (world.db.runs.set k row')[j]? = some run := by
  grind -linarith only [orderly.apart,List.getElem?_set_ne]

theorem Orderly.kept_set (own : k ∈ world.starts → row'.linked = true ∧
    row'.slotAt = row'.claimed) : ∀ j ∈ world.starts, ∃ run, (world.db.runs.set k row')[j]? = some run ∧
    run.linked = true ∧ run.slotAt = run.claimed := by grind -linarith [cases Orderly]

theorem Orderly.links {conversation : Nat} {row : Run}
    (there : world.processes[p]? = some process) (made : process.phase = .made k conversation)
    (found : world.db.runs[k]? = some row) (running : row.status = .running)
    (runs : world'.db.runs = world.db.runs.set k row') (starts : world'.starts = world.starts)
    (processes : world'.processes = world.processes.set p { process with phase := .linked k conversation })
    (slots : Slots row row') (same : row'.slotAt = row.slotAt) (now : row'.linked = true)
    (held : row'.conversationId ≠ none) : Orderly world' := by
  have own : process.phase.run = some k := by rw [made]; rfl
  have whole : row'.slotAt = row'.claimed := by
    rw [same,slots.claimed]
    exact orderly.table.whole row (mem_of_getElem? found) running
  refine orderly.turned there processes ?_ (starts ▸ orderly.once) (fun j new => .inl (own.trans new)) ?_ ?_ ?_ ?_
  · rw [runs]
    exact orderly.table.rows (rows_set found slots fun run _ => (Aged.refl run).toSlots)
      (held_set orderly.table.held fun _ _ => held)
  · intro j new
    cases new
    obtain ⟨run,present,mine⟩ := orderly.mine process (mem_of_getElem? there) k own
    cases present.symm.trans found
    refine ⟨row',by rw [runs,List.getElem?_set_self',found]; rfl,slots.claimed.trans mine.claimed,?_,?_⟩
    · exact fun _ => ⟨now,whole⟩
    · exact starts ▸ mine.started
  · grind -linarith only [orderly.besides]
  · intro _; exact orderly.early process (mem_of_getElem? there) (by rw [made]; rfl)
  · rw [starts,runs]; exact orderly.kept_set fun _ => ⟨now,whole⟩

theorem Orderly.begins {conversation : Nat}
    (there : world.processes[p]? = some process) (linked : process.phase = .linked k conversation)
    (runs : world'.db.runs = world.db.runs) (starts : world'.starts = world.starts ++ [k])
    (processes : world'.processes =
      world.processes.set p { process with started := true, phase := .turning k conversation }) : Orderly world' := by
  have own : process.phase.run = some k := by rw [linked]; rfl
  have member := mem_of_getElem? there
  obtain ⟨row,found,mine⟩ := orderly.mine process member k own
  have had := mine.past (by rw [linked]; rfl)
  have unstarted : k ∉ world.starts := by
    intro started
    have never := orderly.early process member (by rw [linked]; rfl)
    exact Bool.false_ne_true (never.symm.trans (mine.started started))
  refine orderly.turned there processes (runs ▸ orderly.table) ?_ (fun j new => .inl (own.trans new)) ?_ ?_
    (fun never => Bool.noConfusion never) ?_
  · rw [starts]
    refine nodup_append.mpr ⟨orderly.once,by simp,?_⟩
    intro a old b new equal
    rw [mem_singleton.mp new] at equal
    exact unstarted (equal ▸ old)
  · intro j new
    cases new; exact ⟨row,runs ▸ found,mine.claimed,fun _ => had,fun _ => rfl⟩
  · intro q other j run differ foundOther ownOther present mineOther
    refine ⟨run,runs ▸ present,mineOther.claimed,mineOther.past,?_⟩
    grind -linarith only [mem_append,mineOther.started,mem_singleton,orderly.apart]
  grind -linarith only [mem_append,orderly.kept,mem_singleton]

theorem Orderly.finishes (there : world.processes[p]? = some process) (own : process.phase.run = some k)
    (starts : world'.starts = world.starts)
    (processes : world'.processes = world.processes.set p { process with phase := .finished })
    (rows : ∀ run ∈ world.db.runs[k]?, ∃ run', world'.db.runs = world.db.runs.set k run' ∧ Aged run run' ∧
      run'.status ≠ .running ∧ (process.started = true → process.slot ≠ none → run'.slotAt = run.slotAt)) :
    Orderly world' := by
  obtain ⟨row,found,mine⟩ := orderly.mine process (mem_of_getElem? there) k own
  obtain ⟨row',runs,aged,ended,keeps⟩ := rows row found
  refine orderly.turned there processes ?_ (starts ▸ orderly.once) (fun j new => by cases new)
    (fun j new => by cases new) ?_ (fun never => Bool.noConfusion never) ?_
  · rw [runs]
    exact orderly.table.rows (rows_set found aged.toSlots fun run _ => (Aged.refl run).toSlots)
      (held_set orderly.table.held fun _ running => absurd running ended)
  · grind -linarith only [orderly.besides]
  · rw [starts,runs]
    refine orderly.kept_set fun started => ?_
    obtain ⟨run,present,linked,whole⟩ := orderly.kept k started
    cases present.symm.trans found
    refine ⟨aged.linked.trans linked,?_⟩
    rw [aged.claimed]
    -- a run by hand has no slot to lose
    by_cases cron : process.slot = none
    all_goals grind -linarith only [mine.claimed,aged.slotAt,mine.started]

theorem orderly_step (careful : Careful world action) :
    Orderly (step calendar world action) := by
  cases step_moves calendar world action with
  | spawns started runs starts processes due => exact orderly.spawns runs starts processes due
  | ages starts processes aged kept => exact orderly.ages starts processes aged (kept careful orderly.table.held)
  | leaves p process phase there runs starts processes same notPast early =>
    have member := mem_of_getElem? there
    have owned : ∀ k, phase.run = some k → process.phase.run = some k := by
      intro k new
      obtain gone | before := same
      · rw [gone] at new; cases new
      · exact before.symm.trans new
    refine orderly.turned there processes (runs ▸ orderly.table) (starts ▸ orderly.once)
      (fun k new => .inl (owned k new)) ?_ ?_ (fun isEarly => orderly.early process member (early isEarly)) ?_
    · intro k new
      obtain ⟨run,found,mine⟩ := orderly.mine process member k (owned k new)
      exact ⟨run,runs ▸ found,mine.claimed,fun past => absurd (notPast.symm.trans past) Bool.false_ne_true,
        starts ▸ mine.started⟩
    all_goals grind -linarith only [orderly.kept]
  | inserts p process there due free run runs starts processes row =>
    exact orderly.inserts there due free runs starts processes row
  | links p k conversation process row row' there made found running runs starts processes slots same now held =>
    exact orderly.links there made found running runs starts processes slots same now (held careful)
  | begins p k conversation process there linked runs starts processes =>
    exact orderly.begins there linked runs starts processes
  | finishes p k process there own starts processes gone rows => grind -linarith only [orderly.finishes]

end

theorem fresh_orderly (schedules : List Schedule) (conversations : List Nat) (now : Int) :
    Orderly (fresh schedules conversations now) := by
  refine ⟨⟨?_,?_,?_⟩,?_,?_,?_,?_,nodup_nil⟩ <;> simp [fresh,Held]

theorem fresh_traced (schedules : List Schedule) (conversations : List Nat) (now : Int) :
    Traced (fresh schedules conversations now) :=
  ⟨fun _ never => absurd never not_mem_nil,fun _ never => absurd never not_mem_nil⟩

theorem Orderly.turns (orderly : Orderly world) (schedule : Nat) (slot : Int) :
    (world.turns schedule slot).length ≤ 1 := by
  have same : ∀ i ∈ world.turns schedule slot, ∀ j ∈ world.turns schedule slot, i = j := by
    grind -linarith only [mem_filter,Option.any_some,orderly.table.unique,cases Orderly,World.turns]
  have nodup : (world.turns schedule slot).Nodup := orderly.once.filter _
  match turns : world.turns schedule slot with
  | [] => exact Nat.zero_le 1
  | [k] => exact Nat.le_refl 1
  | i :: j :: rest =>
    rw [turns] at same nodup
    have equal : i = j := same i (by simp) j (by simp)
    simp [equal] at nodup

theorem Orderly.reap (orderly : Orderly world) (found : world.db.runs[k]? = some run) (linked : run.linked = true)
    (locked : List Nat) : ∃ run', (world.db.reapLapsedRuns world.now locked).runs[k]? = some run' ∧
    run'.slotAt = run.slotAt := by
  have rows : Rows Kept world.db.runs (world.db.reapLapsedRuns world.now locked).runs :=
    rows_mapIdx (reap_kept orderly.table.held world.now locked)
  obtain ⟨run',found',kept⟩ := rows_forth rows found
  exact ⟨run',found',kept.slotAt linked⟩

end

/-- In every careful run, whatever dies in it: at most one turn is started for a slot, a reap leaves linked runs their
    slots, and a run that ended before it was linked starts none. -/
theorem slots_run_once (calendar : Calendar) (schedules : List Schedule) (conversations : List Nat) (now : Int)
    (actions : List Action)
    (careful : Permitted (step calendar) Careful (fresh schedules conversations now) actions) :
    let world := reach (step calendar) (fresh schedules conversations now) actions
    (∀ schedule slot, (world.turns schedule slot).length ≤ 1) ∧
    (∀ (k : Nat) (run : Run) (locked : List Nat), world.db.runs[k]? = some run → run.linked = true →
      ∃ run', (world.db.reapLapsedRuns world.now locked).runs[k]? = some run' ∧ run'.slotAt = run.slotAt) ∧
    (∀ k, Lost k world → ∀ more, k ∉ (reach (step calendar) world more).starts) := by
  intro world
  have orderly : Orderly world :=
    invariant_reach (fun _ _ => orderly_step) (fresh_orderly schedules conversations now) careful
  have traced : Traced world := always_reach (fun _ _ => traced_step) (fresh_traced schedules conversations now) actions
  refine ⟨orderly.turns,?_,?_⟩
  · intro k run locked found linked; exact orderly.reap found linked locked
  · intro k lost more; exact lost_never_starts traced lost more

def daily : Schedule := ⟨.daily,"UTC",0,true⟩

def aPoll : List Action := [.reap [],.missed,.poll]

def lapse : Action := .tick 121000000

/-- The first server dies before it has linked a conversation; the second runs the turn and dies in it. -/
def recoveredRun : List Action :=
  aPoll ++ [.insert 0,.make 0 7,.crash 0,lapse] ++ aPoll ++
    [.insert 1,.make 1 8,.link 1,.start 1,.crash 1,lapse] ++ aPoll

theorem recoveredRun_runs_once :
    Permitted (step everyDay) Careful (fresh [daily] [] (seconds 60)) recoveredRun ∧
    (reach (step everyDay) (fresh [daily] [] (seconds 60)) recoveredRun).turns 0 0 = [1] ∧
    ((reach (step everyDay) (fresh [daily] [] (seconds 60)) recoveredRun).turns 0 0).length ≤ 1 := by
  have careful : Permitted (step everyDay) Careful (fresh [daily] [] (seconds 60)) recoveredRun := by decide +kernel
  exact ⟨careful,by decide +kernel,(slots_run_once everyDay [daily] [] (seconds 60) recoveredRun careful).1 0 0⟩

def deletedRun : List Action :=
  aPoll ++ [.insert 0,.make 0 7,.link 0,.start 0,.release 7,.crash 0,lapse]

/-- The reap gives back the slot of the linked run, and the next poll starts a second turn for it. -/
theorem deleted_conversation_runs_twice :
    let world := reach (step everyDay) (fresh [daily] [] (seconds 60)) deletedRun
    (world.db.runs[0]?).map (fun run => (run.linked,run.slotAt)) = some (true,some 0) ∧
    ((world.db.reapLapsedRuns world.now []).runs[0]?).map (fun run => (run.linked,run.slotAt)) = some (true,none) ∧
    (reach (step everyDay) world (aPoll ++ [.insert 1,.make 1 8,.link 1,.start 1])).turns 0 0 = [0,1] := by
  decide +kernel

end Cowork.SlotClaims
