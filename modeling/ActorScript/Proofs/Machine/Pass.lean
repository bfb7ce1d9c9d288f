import ActorScript.Proofs.Machine.Reachable

/-!
# What a pass reports

While a frame runs, it vacates no slot but that of its own entity, and that at most once.
So every entry of a report tells which slot its tick has vacated and what it has added to
the deletions, and the entries of a pass, which are about different slots, tell it for
the whole pass.
-/

namespace ActorScript

namespace Execution

variable {session : Session} {instruction : Instruction} {world : World} {id : EntityId}

/-- No frame adds to the deletions while it runs. -/
theorem keeps_deletions (session : Session) (deletions : Array EntityId) :
    Keeps session fun execution : Execution World => execution.world.deletions = deletions := by
  apply Keeps.of_machine fun machine : Machine World => machine.world.deletions = deletions
  intro instruction before after change start
  cases change with
  | adjust _ _ =>
      rw [world_modifyActor]
      split <;> exact start
  | store ref field _ value _ => exact (World.deletions_writeField _ ref field value).trans start
  | cause _ effect =>
      rw [world_cause_inMemory]
      exact (World.deletions_apply _ _ effect).trans start
  | _ => exact start

/-! ## What a frame vacates -/

/-- The slots that a frame has vacated so far: that of its entity, once the entity has
removed itself. -/
def vacated (execution : Execution World) (id : EntityId) : List UInt32 :=
  if execution.frame.termination = .deletedQuiet then [id.index] else []

theorem vacated_of_ne (execution : Execution World) (id : EntityId)
    (noisy : execution.frame.termination ≠ .deletedQuiet) : execution.vacated id = [] :=
  if_neg noisy

/-- A request to delete does not vacate a slot. -/
theorem vacated_requestDelete (execution : Execution World) (id : EntityId) :
    execution.requestDelete.vacated id = execution.vacated id := by
  unfold vacated
  rw [frame_requestDelete, Frame.stop_eq]
  by_cases running : execution.frame.termination = .running
  · simp [Frame.isRunning, running]
  · simp [Frame.isRunning, running]

/-- The frame of an entity has vacated nothing but what its ending tells. -/
structure Spares (world : World) (id : EntityId) (execution : Execution World) : Prop where
  own : execution.entity = some id
  vacates : execution.world.slots.size < UInt32.size →
    World.Vacates (execution.vacated id) world execution.world

/-- What changes the world only, and no slot. -/
theorem Spares.alike {before after : Execution World} (spares : Spares world id before)
    (alike : World.Alike before.world after.world) (frame_eq : after.frame = before.frame) :
    Spares world id after where
  own := by
    rw [entity, frame_eq]
    exact spares.own
  vacates small := by
    rw [vacated, frame_eq]
    exact (spares.vacates (alike.size_eq ▸ small)).alike alike

/-- An effect vacates the slot of its own entity at most, and then stops the frame. -/
theorem spares_cause {execution : Execution World} (alive : world.isAlive id = true)
    (running : execution.frame.termination = .running) (effect : Effect)
    (spares : Spares world id execution) : Spares world id (execution.cause effect) := by
  have nothing : execution.vacated id = [] :=
    vacated_of_ne execution id (by rw [running]; decide)
  have frame_eq := frame_cause_inMemory execution effect
  have world_eq := world_cause_inMemory execution effect
  obtain ⟨noted, slots_eq, free_eq, possible⟩ :=
    World.applied execution.world execution.entity effect
  have alike := World.alike_of_slots_eq slots_eq free_eq
  generalize execution.world.apply execution.entity effect = outcome
    at possible frame_eq world_eq
  cases possible with
  | idle _ => exact spares.alike (world_eq ▸ alike) frame_eq
  | @changes _ other change _ =>
      have changed := alike.trans (World.alike_modify noted other change)
      exact spares.alike (world_eq ▸ changed) frame_eq
  | spawns kind sector =>
      have fits : (execution.cause effect).world.slots.size < UInt32.size →
          noted.slots.size < UInt32.size := by
        rw [world_eq]
        exact Nat.lt_of_le_of_lt (World.size_spawn kind sector)
      constructor
      · rw [entity, frame_eq]
        exact spares.own
      · intro small
        have enough := fits small
        rw [vacated, frame_eq, world_eq]
        exact ((spares.vacates (alike.size_eq ▸ enough)).alike alike).spawn enough kind sector
  | @removes other own =>
      cases own.symm.trans spares.own
      constructor
      · rw [entity, frame_eq, Frame.stop_eq]
        exact spares.own
      · intro small
        have quiet : (execution.cause effect).frame.termination = .deletedQuiet := by
          rw [frame_eq, Frame.stop_eq]
          simp [Frame.isRunning, running]
        rw [world_eq, World.size_remove] at small
        have earlier := (spares.vacates (alike.size_eq ▸ small)).alike alike
        rw [nothing] at earlier
        have still : noted.isAlive id = true :=
          (earlier.isAlive_iff alive).2 List.not_mem_nil
        rw [vacated, if_pos quiet, world_eq]
        exact earlier.trans (World.vacates_remove earlier.tidy still)
          fun _ member => absurd member List.not_mem_nil

theorem spares_change {before after : Execution World} (alive : world.isAlive id = true)
    (change : Change session instruction before after) (spares : Spares world id before) :
    Spares world id after := by
  cases change with
  | adjust change _ =>
      exact spares.alike (alike_modifyActor before change) (frame_modifyActor before change)
  | read ref field _ => exact spares.alike (World.alike_countFieldCall before.world) rfl
  | store ref field _ value _ =>
      exact spares.alike (World.alike_writeField before.world ref field value) rfl
  | cause running effect => exact spares_cause alive running effect spares
  | stop =>
      constructor
      · rw [entity, frame_requestDelete, Frame.stop_eq]
        exact spares.own
      · rw [vacated_requestDelete]
        exact spares.vacates
  | jump _ => exact ⟨spares.own, spares.vacates⟩
  | draw _ _ => exact ⟨spares.own, spares.vacates⟩
  | drawDisplay _ _ => exact ⟨spares.own, spares.vacates⟩
  | write _ _ _ => exact ⟨spares.own, spares.vacates⟩
  | ask _ => exact ⟨spares.own, spares.vacates⟩

/-- No frame vacates the slot of another entity, and none its own without telling. -/
theorem keeps_spares (session : Session) (alive : world.isAlive id = true) :
    Keeps session (Spares world id) where
  countStep start := ⟨start.own, start.vacates⟩
  moveTo _ start := ⟨start.own, start.vacates⟩
  enter _ start := ⟨start.own, start.vacates⟩
  leave start := ⟨start.own, start.vacates⟩
  requestDelete start := by
    constructor
    · rw [entity, frame_requestDelete, Frame.stop_eq]
      exact start.own
    · rw [vacated_requestDelete]
      exact start.vacates
  change change start := spares_change alive change start

end Execution

namespace Machine

open Execution

variable {session : Session} {machine : Machine World} {id : EntityId}

/-! ## Single ticks -/

theorem deletions_settle (machine : Machine World) (id : EntityId) (occasion : Occasion) :
    (machine.settle id occasion).world.deletions = machine.world.deletions := by
  apply kept_settle (fun world => world.deletions = machine.world.deletions) rfl
  intro world after settling earlier
  cases settling <;> exact earlier

/-- The deletion of a living entity is recorded. -/
theorem deletions_conclude (alive : machine.world.isAlive id = true) :
    (machine.conclude id .delete).world.deletions = machine.world.deletions.push id := by
  have still : (machine.world.releasePlayers id).isAlive id = true := by
    rw [(alike_releasePlayers machine.world id).isAlive_eq]
    exact alive
  change ((machine.world.releasePlayers id).delete id).deletions = _
  unfold World.delete
  rw [if_pos still]
  exact congrArg (·.push id) (World.deletions_remove _ id)

/-- All that a tick that succeeds can come to. -/
inductive Ticks (session : Session) (machine : Machine World) (id : EntityId) :
    Option FrameOutcome → Machine World → Prop
  /-- The entity is gone, or its kind has no script for a tick. -/
  | idle : Ticks session machine id none machine
  | outside (alive : machine.world.isAlive id = true) :
      Ticks session machine id (some .delete) (machine.conclude id .delete)
  | runs {start after : Execution World} (starts : Starts session machine (.tick id) start)
      (block : start.runBlock session = (.ok (), after))
      (running : after.frame.termination = .running) :
      Ticks session machine id (some .normal) (after.toMachine.settle id .tick)
  | stops {start after : Execution World} (starts : Starts session machine (.tick id) start)
      (block : start.runBlock session = (.ok (), after))
      (stopped : after.frame.termination ≠ .running) :
      Ticks session machine id (some after.frame.termination.outcome)
        (after.toMachine.conclude id after.frame.termination.outcome)

theorem ticks_of_runTick {outcome? : Option FrameOutcome} {after : Machine World}
    (ticked : machine.runTick session id = (.ok outcome?, after)) :
    Ticks session machine id outcome? after := by
  unfold runTick at ticked
  split at ticked
  · cases ticked
    exact .idle
  · rename_i start script
    obtain ⟨scripts, found, _⟩ := Option.bind_eq_some_iff.1 script
    split at ticked
    · cases ticked
      exact .outside ((scriptsOf?_eq_some_iff.1 found).1)
    · rename_i inside
      dsimp only at ticked
      split at ticked
      · cases ticked
      · rename_i world animated
        have starts := Starts.tick script (Bool.eq_false_iff.2 inside) animated
        unfold runScript at ticked
        split at ticked
        · cases ticked
        · rename_i after block
          cases ending : after.frame.termination with
          | running =>
              simp only [ending, Termination.outcome] at ticked
              cases ticked
              exact .runs starts block ending
          | deleted | deletedQuiet =>
              have ticks := Ticks.stops starts block (by simp [ending])
              simp only [ending, Termination.outcome] at ticked ticks
              cases ticked
              exact ticks

/-- The slots that an entry of a report tells to be vacated. -/
def vacatedBy (entry : EntityId × FrameOutcome) : List UInt32 :=
  match entry.2 with
  | .normal => []
  | .delete | .deleteQuiet => [entry.1.index]

theorem mem_vacatedBy_iff {entry : EntityId × FrameOutcome} {index : UInt32} :
    index ∈ vacatedBy entry ↔ entry.2 ≠ .normal ∧ index = entry.1.index := by
  obtain ⟨id, outcome⟩ := entry
  cases outcome <;> simp [vacatedBy]

/-- The entities that the entries of a report tell to be deleted. -/
def deletedBy (entries : List (EntityId × FrameOutcome)) : List EntityId :=
  (entries.filter fun entry => entry.2 = .delete).map Prod.fst

/-- Entries of a report tell what has happened to the slots of a world and to its
deletions. -/
structure Accounts (entries : List (EntityId × FrameOutcome)) (before after : World) : Prop where
  vacates : World.Vacates (entries.flatMap vacatedBy) before after
  deletions : after.deletions.toList = before.deletions.toList ++ deletedBy entries

theorem Accounts.trans {before between after : World}
    {first second : List (EntityId × FrameOutcome)} (earlier : Accounts first before between)
    (later : Accounts second between after)
    (apart : ∀ index ∈ first.flatMap vacatedBy, index ∉ second.flatMap vacatedBy) :
    Accounts (first ++ second) before after where
  vacates := by
    rw [List.flatMap_append]
    exact earlier.vacates.trans later.vacates apart
  deletions := by
    rw [later.deletions, earlier.deletions, deletedBy, deletedBy, deletedBy, List.filter_append,
      List.map_append, List.append_assoc]

/-- The entry of a tick, if it has one. -/
def entryOf (id : EntityId) (outcome? : Option FrameOutcome) : List (EntityId × FrameOutcome) :=
  outcome?.toList.map fun outcome => (id, outcome)

section Frame

variable {start : Execution World} (starts : Starts session machine (.tick id) start)
include starts

/-- A tick starts its frame for its entity, which is alive, with nothing vacated. -/
theorem spares_of_starts (tidy : machine.world.Tidy) :
    machine.world.isAlive id = true ∧ Spares machine.world id start := by
  have alike := alike_of_starts (by simp) starts
  cases starts with
  | tick script inside animated =>
      obtain ⟨scripts, found, _⟩ := Option.bind_eq_some_iff.1 script
      have alive := (scriptsOf?_eq_some_iff.1 found).1
      exact ⟨alive, rfl, fun _ => (World.Vacates.refl tidy).alike alike⟩

theorem deletions_of_starts : start.world.deletions = machine.world.deletions := by
  obtain ⟨world, address, extra, cursor, rfl, same, _, _⟩ := starts.eq_begin (by simp)
  rcases same with rfl | ⟨_, _, _, _, rfl⟩ <;> rfl

variable (limited : session.config.maxSteps ≠ 0) (tidy : machine.world.Tidy)
include limited tidy

theorem spares_of_block : Spares machine.world id (start.runBlock session).2 := by
  obtain ⟨moments, run⟩ := exists_run limited .frame start
  obtain ⟨alive, spares⟩ := spares_of_starts starts tidy
  exact (run.kept (keeps_spares session alive) spares).2

omit tidy in
theorem deletions_of_block :
    (start.runBlock session).2.world.deletions = machine.world.deletions := by
  obtain ⟨moments, run⟩ := exists_run limited .frame start
  exact (run.kept (keeps_deletions session _) (deletions_of_starts starts)).2

end Frame

section Passes

variable (limited : session.config.maxSteps ≠ 0)
include limited

/-- The entry of a tick tells what the tick has done. -/
theorem accounts_of_ticks {outcome? : Option FrameOutcome} {after : Machine World}
    (ticks : Ticks session machine id outcome? after) (tidy : machine.world.Tidy)
    (small : after.world.slots.size < UInt32.size) :
    Accounts (entryOf id outcome?) machine.world after.world := by
  cases ticks with
  | idle => exact ⟨.refl tidy, (List.append_nil _).symm⟩
  | outside alive =>
      constructor
      · exact (World.vacates_remove tidy alive).alike (alike_delete alive)
      · rw [deletions_conclude alive, Array.toList_push]
        rfl
  | @runs start after starts block running =>
      have spares := spares_of_block starts limited tidy
      have deletions_eq := deletions_of_block starts limited
      have alike := alike_settle after.toMachine id .tick
      rw [block] at spares deletions_eq
      constructor
      · have vacates := spares.vacates (alike.size_eq ▸ small)
        rw [vacated_of_ne after id (by rw [running]; decide)] at vacates
        exact vacates.alike alike
      · rw [deletions_settle, deletions_eq]
        exact (List.append_nil _).symm
  | @stops start after starts block stopped =>
      have alive := (spares_of_starts starts tidy).1
      have spares := spares_of_block starts limited tidy
      have deletions_eq := deletions_of_block starts limited
      rw [block] at spares deletions_eq
      rw [size_conclude] at small
      have vacates := spares.vacates small
      cases ending : after.frame.termination with
      | running => exact absurd ending stopped
      | deleted =>
          rw [vacated_of_ne after id (by rw [ending]; decide)] at vacates
          have still : after.world.isAlive id = true :=
            (vacates.isAlive_iff alive).2 List.not_mem_nil
          have removed := (World.vacates_remove vacates.tidy still).alike (alike_delete still)
          constructor
          · exact vacates.trans removed fun _ member => absurd member List.not_mem_nil
          · have pushed := deletions_conclude still
            change (after.toMachine.conclude id .delete).world.deletions.toList = _
            rw [pushed, Array.toList_push, deletions_eq]
            rfl
      | deletedQuiet =>
          -- The entity has removed itself, and nothing in the world is left to be done.
          rw [vacated, if_pos ending] at vacates
          constructor
          · exact vacates
          · change after.world.deletions.toList = _
            rw [deletions_eq]
            exact (List.append_nil _).symm

end Passes

/-! ## Passes -/

/-- Entities are ticked one after the other without an error, with these entries. -/
inductive Passed (session : Session) :
    List EntityId → Machine World → List (EntityId × FrameOutcome) → Machine World → Prop
  | done {machine : Machine World} : Passed session [] machine [] machine
  | next {machine middle after : Machine World} {id : EntityId} {rest : List EntityId}
      {outcome? : Option FrameOutcome} {entries : List (EntityId × FrameOutcome)}
      (ticked : machine.runTick session id = (.ok outcome?, middle))
      (later : Passed session rest middle entries after) :
      Passed session (id :: rest) machine (entryOf id outcome? ++ entries) after

theorem passed_of_runEach {ids : List EntityId} {report final : PassReport} {after : Machine World}
    (pass : runEach session ids report machine = (.ok final, after)) :
    ∃ entries, final.toList = report.toList ++ entries ∧
      Passed session ids machine entries after := by
  induction ids generalizing report machine with
  | nil =>
      cases pass
      exact ⟨[], (List.append_nil _).symm, .done⟩
  | cons id rest ih =>
      unfold runEach at pass
      split at pass
      · cases pass
      · rename_i ticked
        obtain ⟨entries, final_eq, later⟩ := ih pass
        exact ⟨entries, final_eq, .next ticked later⟩
      · rename_i outcome middle ticked
        obtain ⟨entries, final_eq, later⟩ := ih pass
        refine ⟨(id, outcome) :: entries, ?_, .next ticked later⟩
        rw [final_eq, Array.toList_push, List.append_assoc]
        rfl

theorem passed_of_discard {ids : List EntityId} {after : Machine World}
    (pass : discard (runEach session ids #[] machine) = (.ok (), after)) :
    ∃ entries, Passed session ids machine entries after := by
  cases answer : runEach session ids #[] machine with
  | mk result finish =>
      rw [answer] at pass
      cases result with
      | error error => cases pass
      | ok report =>
          cases pass
          obtain ⟨entries, _, passed⟩ := passed_of_runEach answer
          exact ⟨entries, passed⟩

section Passed

variable {ids : List EntityId} {entries : List (EntityId × FrameOutcome)} {after : Machine World}
  (passed : Passed session ids machine entries after)
include passed

/-- The entries are in the order of the ticks. -/
theorem Passed.sublist : (entries.map Prod.fst).Sublist ids := by
  induction passed with
  | done => exact .slnil
  | @next machine middle after id rest outcome? entries ticked later ih =>
      cases outcome? with
      | none => exact ih.cons id
      | some outcome => exact ih.cons_cons id

/-- Only slots of entities that have been ticked are vacated. -/
theorem Passed.vacated_subset :
    ∀ index ∈ entries.flatMap vacatedBy, index ∈ ids.map (·.index) := by
  intro index vacated
  obtain ⟨entry, listed, told⟩ := List.mem_flatMap.1 vacated
  rw [(mem_vacatedBy_iff.1 told).2]
  exact List.mem_map_of_mem (passed.sublist.subset (List.mem_map_of_mem listed))

variable (limited : session.config.maxSteps ≠ 0)
include limited

theorem Passed.size_le : machine.world.slots.size ≤ after.world.slots.size := by
  induction passed with
  | done => exact Nat.le_refl _
  | @next machine middle after id rest outcome? entries ticked later ih =>
      have grown := size_call machine (.tick id) limited (by simp)
      rw [call, ticked] at grown
      exact Nat.le_trans grown ih

/-- The entries of a pass over different slots tell what the pass has done. -/
theorem Passed.accounts (nodup : (ids.map (·.index)).Nodup) (tidy : machine.world.Tidy)
    (small : after.world.slots.size < UInt32.size) :
    Accounts entries machine.world after.world := by
  induction passed with
  | done => exact ⟨.refl tidy, (List.append_nil _).symm⟩
  | @next machine middle after id rest outcome? entries ticked later ih =>
      have enough := Nat.lt_of_le_of_lt (later.size_le limited) small
      have first := accounts_of_ticks limited (ticks_of_runTick ticked) tidy enough
      obtain ⟨absent, others⟩ := List.nodup_cons.1 nodup
      apply first.trans (ih others first.vacates.tidy small)
      intro index here there
      have alone : Passed session [id] machine (entryOf id outcome? ++ []) middle :=
        .next ticked .done
      rw [List.append_nil] at alone
      have index_eq := List.mem_singleton.1 (alone.vacated_subset index here)
      exact absent (index_eq ▸ later.vacated_subset index there)

end Passed

/-- Among entries about different slots, the normal ones are about survivors. -/
theorem Accounts.normal_iff {entries : List (EntityId × FrameOutcome)} {before after : World}
    (accounts : Accounts entries before after)
    (nodup : (entries.map (·.1.index)).Nodup) {entry : EntityId × FrameOutcome}
    (listed : entry ∈ entries) (alive : before.isAlive entry.1 = true) :
    entry.2 = .normal ↔ after.isAlive entry.1 = true := by
  rw [accounts.vacates.isAlive_iff alive]
  constructor
  · intro normal vacated
    obtain ⟨other, other_listed, told⟩ := List.mem_flatMap.1 vacated
    obtain ⟨abnormal, same⟩ := mem_vacatedBy_iff.1 told
    cases List.inj_on_of_nodup_map nodup listed other_listed same
    exact abnormal normal
  · intro kept
    by_contra abnormal
    exact kept (List.mem_flatMap.2 ⟨entry, listed, mem_vacatedBy_iff.2 ⟨abnormal, rfl⟩⟩)

/-! ## What is spawned in a pass -/

/-- An entity that a script spawns takes the slot that the world has for it. -/
theorem spawn_of_spawned? {execution : Execution World} {spawned : EntityId}
    (spawns : execution.spawned? session = some spawned) :
    ∃ kind sector, (execution.world.spawn kind sector).1 = spawned := by
  unfold spawned? at spawns
  split at spawns
  · contradiction
  · split at spawns
    · cases spawns
      exact ⟨_, _, rfl⟩
    · cases spawns
      exact ⟨_, _, rfl⟩
    · contradiction

/-- No entity that is spawned in a tick was alive before the ticks in front of it. -/
theorem spawned_ne_of_tick (limited : session.config.maxSteps ≠ 0) {machine middle : Machine World}
    {ids : List EntityId} {entries : List (EntityId × FrameOutcome)}
    (passed : Passed session ids machine entries middle)
    (nodup : ((ids ++ [id]).map (·.index)).Nodup) (tidy : machine.world.Tidy)
    {moment : Moment World}
    (meets : Meets session middle (.tick id) moment)
    (small : (middle.call session (.tick id)).2.world.slots.size < UInt32.size)
    {spawned : EntityId} (spawns : moment.execution.spawned? session = some spawned)
    {other : EntityId} (alive : machine.world.isAlive other = true) : spawned ≠ other := by
  obtain ⟨start, moments, starts, run, member⟩ := meets
  -- The world of the moment has no more slots than the world after the tick.
  obtain ⟨behind, attempt_eq, _⟩ := attempt_of_spawned? spawns
  have grown := (keeps_size session _).settled (Nat.le_refl _) attempt_eq
  have grown_on := run.kept_from (keeps_size session _) member attempt_eq grown
  rw [size_of_finishes (finishes_of_starts (by simp) starts)] at small
  have enough := Nat.lt_of_le_of_lt grown_on small
  have enough_before := Nat.lt_of_le_of_lt (size_of_starts limited (by simp) starts) small
  -- Nothing has been vacated but the slots of entities ticked before and that of the entity.
  rw [List.map_append, List.nodup_append'] at nodup
  have earlier := (passed.accounts limited nodup.1 tidy enough_before).vacates
  obtain ⟨own_alive, spares⟩ := spares_of_starts starts earlier.tidy
  have here := ((run.kept (keeps_spares session own_alive) spares).1 moment member).vacates enough
  have apart : ∀ index ∈ entries.flatMap vacatedBy, index ∉ moment.execution.vacated id := by
    intro index told own
    have index_eq : index = id.index := by
      unfold vacated at own
      split at own
      · exact List.mem_singleton.1 own
      · contradiction
    exact nodup.2.2 (passed.vacated_subset index told) (by simp [index_eq])
  obtain ⟨kind, sector, rfl⟩ := spawn_of_spawned? spawns
  exact (earlier.trans here apart).spawn_ne alive enough kind sector

/-- The report of a pass agrees with the world: it follows the order of the tick, with no
entity twice and none that is spawned in the pass; the entries that ended normally are those
of the survivors; and the deletions recorded are those that are reported. -/
theorem report_of_runAll (limited : session.config.maxSteps ≠ 0)
    (reachable : machine.world.Reachable) {report : PassReport} {after : Machine World}
    (pass : machine.runAll session = (.ok report, after))
    (small : after.world.slots.size < UInt32.size) :
    let ids := report.toList.map Prod.fst
    ids.Sublist machine.world.tickOrder ∧ ids.Nodup ∧
      (∀ moment spawned, Meets session machine .all moment →
        moment.execution.spawned? session = some spawned → spawned ∉ ids) ∧
      (∀ entry ∈ report, entry.2 = .normal ↔ after.world.isAlive entry.1 = true) ∧
      after.world.deletions.toList = machine.world.deletions.toList ++
        (report.toList.filter fun entry => entry.2 = .delete).map Prod.fst := by
  obtain ⟨entries, report_eq, passed⟩ := passed_of_runEach pass
  rw [List.nil_append] at report_eq
  have enough := Nat.lt_of_le_of_lt (passed.size_le limited) small
  have tidy := reachable.tidy enough
  have nodup := World.nodup_tickOrder enough
  have accounts := passed.accounts limited nodup tidy small
  have alive : ∀ id ∈ entries.map Prod.fst, machine.world.isAlive id = true :=
    fun id listed => World.isAlive_of_mem_tickOrder enough (passed.sublist.subset listed)
  have slots_nodup : (entries.map (·.1.index)).Nodup := by
    have within := (passed.sublist.map (·.index)).nodup nodup
    rwa [List.map_map] at within
  intro ids
  have ids_eq : ids = entries.map Prod.fst := congrArg (List.map Prod.fst) report_eq
  rw [ids_eq]
  refine ⟨passed.sublist, passed.sublist.nodup (List.Nodup.of_map _ nodup), ?_, ?_, ?_⟩
  · rintro moment spawned ⟨start, moments, starts, run, member⟩ spawns listed
    cases starts with
    | @all _ middle before rest id _ order earlier starts =>
        obtain ⟨_, passed_before⟩ := passed_of_discard earlier
        have pass_on : discard (runEach session (id :: rest) #[] middle) = (.ok (), after) := by
          rw [← discard_runEach_append earlier, ← order]
          exact congrArg discard pass
        obtain ⟨_, passed_on⟩ := passed_of_discard pass_on
        cases passed_on with
        | @next _ between _ _ _ _ _ ticked behind =>
            have call_eq : middle.call session (.tick id) = (.ok (), between) :=
              congrArg discard ticked
            have small_between := Nat.lt_of_le_of_lt (behind.size_le limited) small
            change machine.world.tickOrder = before ++ id :: rest at order
            have front : (before ++ [id]).Sublist machine.world.tickOrder := by
              rw [order]
              exact (List.singleton_sublist.2 List.mem_cons_self).append_left before
            exact spawned_ne_of_tick limited passed_before
              ((front.map (·.index)).nodup nodup) tidy ⟨start, moments, starts, run, member⟩
              (call_eq ▸ small_between) spawns (alive spawned listed) rfl
  · intro entry listed
    rw [← Array.mem_toList_iff, report_eq] at listed
    exact accounts.normal_iff slots_nodup listed (alive _ (List.mem_map_of_mem listed))
  · rw [accounts.deletions, report_eq]
    rfl

/-- At their ticks, actors of the first kind delete themselves, those of the second spawn one
of the first, and those of the third remove themselves. -/
def mixed : Session where
  program := {
    code := #[0x0C, 0x70, 1, 0x07, 0x79, -1]
    actors := ((Table.empty.insert 1 { tick := some 0 }).insert 2 { tick := some 1 }).insert 3
      { tick := some 4 } }
  config := { maxSteps := 8 }

/-- One actor of each kind. -/
def oneEach : Machine World :=
  after mixed (World.new 1 0) [.spawn 1 (some 0), .spawn 2 (some 0), .spawn 3 (some 0)]

/-- The second entity spawns one in the slot that the first has left, which is not ticked. -/
theorem report_oneEach :
    ∃ report after, oneEach.runAll mixed = (.ok report, after) ∧
      report.toList = [(⟨0, 0⟩, .delete), (⟨1, 0⟩, .normal), (⟨2, 0⟩, .deleteQuiet)] ∧
      after.world.isAlive ⟨0, 1⟩ = true ∧ after.world.isAlive ⟨1, 0⟩ = true ∧
      after.world.isAlive ⟨2, 0⟩ = false ∧ after.world.deletions.toList = [⟨0, 0⟩] := by
  -- Sorting by creation does not evaluate, but the slots have been taken in that order.
  have census_eq : oneEach.world.census = oneEach.world.occupants :=
    List.mergeSort_of_pairwise (by decide +kernel)
  have order : oneEach.world.tickOrder = [⟨0, 0⟩, ⟨1, 0⟩, ⟨2, 0⟩] := by
    rw [World.tickOrder, census_eq]
    decide +kernel
  have pass_eq : oneEach.runAll mixed =
      runEach mixed [⟨0, 0⟩, ⟨1, 0⟩, ⟨2, 0⟩] #[] oneEach := by
    change runEach mixed oneEach.world.tickOrder #[] oneEach = _
    rw [order]
  have answer : (oneEach.runAll mixed).1 =
      .ok #[(⟨0, 0⟩, .delete), (⟨1, 0⟩, .normal), (⟨2, 0⟩, .deleteQuiet)] := by
    rw [pass_eq]
    decide +kernel
  have small : (oneEach.runAll mixed).2.world.slots.size < UInt32.size := by
    rw [pass_eq]
    decide +kernel
  have reused : (oneEach.runAll mixed).2.world.isAlive ⟨0, 1⟩ = true := by
    rw [pass_eq]
    decide +kernel
  have limited : mixed.config.maxSteps ≠ 0 := by
    decide
  obtain ⟨_, _, _, normal_iff, deletions_eq⟩ :=
    report_of_runAll limited (reachable_after limited 1 0 _) (Prod.ext answer rfl) small
  have normal := normal_iff (⟨1, 0⟩, .normal) (by simp)
  have gone := normal_iff (⟨2, 0⟩, .deleteQuiet) (by simp)
  refine ⟨_, _, Prod.ext answer rfl, rfl, reused, normal.1 rfl, ?_, deletions_eq⟩
  exact Bool.eq_false_iff.2 fun alive => absurd (gone.2 alive) (by decide)

end Machine

end ActorScript
