import ActorScript.Proofs.Machine.Run
import ActorScript.Proofs.Registry
import ActorScript.Proofs.World.Generations

/-!
# Accounts of a frame

Between frames the watermark of every slot is its generation.  While a frame runs, only
the slot of its own entity can get ahead, by one generation and when the entity has
removed itself: that is just what the ending of the frame tells.
-/

namespace ActorScript

/-- The world and the registry agree on the occupants that each slot has had. -/
structure Machine.Agrees (machine : Machine World) : Prop where
  tidy : machine.world.Tidy
  watermark : ∀ index, machine.registry.watermark index = machine.world.generation index

namespace Execution

variable {session : Session} {instruction : Instruction}

/-- The world and the registry agree but for the entity that a frame has removed itself. -/
structure Accounted (execution : Execution World) : Prop where
  tidy : execution.world.Tidy
  more : ∀ id, execution.entity = some id → id.generation ≠ World.lastGeneration
  elsewhere : ∀ index,
    (execution.frame.termination = .deletedQuiet →
      ∀ id, execution.entity = some id → index ≠ id.index) →
    execution.registry.watermark index = execution.world.generation index
  alive : execution.frame.termination ≠ .deletedQuiet →
    ∀ id, execution.entity = some id → execution.world.isAlive id = true
  removed : execution.frame.termination = .deletedQuiet →
    ∃ id, execution.entity = some id ∧
      execution.registry.watermark id.index = id.generation ∧
      execution.world.generation id.index = id.generation + 1

/-- What changes neither generations nor watermarks nor whether the entity has removed
itself. -/
theorem Accounted.same {before after : Execution World} (accounted : before.Accounted)
    (entity_eq : after.entity = before.entity)
    (ending_iff : after.frame.termination = .deletedQuiet ↔
      before.frame.termination = .deletedQuiet)
    (tidy : after.world.Tidy)
    (watermark_eq : ∀ index, after.registry.watermark index = before.registry.watermark index)
    (generation_eq : after.world.generation = before.world.generation)
    (alive : ∀ id, before.world.isAlive id = true → after.world.isAlive id = true) :
    after.Accounted where
  tidy := tidy
  more := entity_eq ▸ accounted.more
  elsewhere index apart := by
    rw [watermark_eq, generation_eq]
    apply accounted.elsewhere
    intro quiet id own
    exact apart (ending_iff.2 quiet) id (entity_eq.trans own)
  alive noisy id own := by
    apply alive
    apply accounted.alive
    · intro quiet
      exact noisy (ending_iff.2 quiet)
    · exact entity_eq.symm.trans own
  removed quiet := by
    obtain ⟨id, own, current, next⟩ := accounted.removed (ending_iff.1 quiet)
    refine ⟨id, entity_eq.trans own, ?_, ?_⟩
    · rw [watermark_eq]
      exact current
    · rw [generation_eq]
      exact next

/-- What changes the frame at most, and leaves open how it ends. -/
theorem Accounted.sameMachine {before after : Execution World} (accounted : before.Accounted)
    (machine_eq : after.toMachine = before.toMachine) (entity_eq : after.entity = before.entity)
    (ending_iff : after.frame.termination = .deletedQuiet ↔
      before.frame.termination = .deletedQuiet) : after.Accounted := by
  have world_eq : after.world = before.world := congrArg Machine.world machine_eq
  have registry_eq : after.registry = before.registry := congrArg Machine.registry machine_eq
  apply accounted.same entity_eq ending_iff
  · rw [world_eq]
    exact accounted.tidy
  · intro index
    rw [registry_eq]
  · rw [world_eq]
  · intro id alive
    rw [world_eq]
    exact alive

/-- What changes the world only, and no slot. -/
theorem Accounted.alike {before after : Execution World} (accounted : before.Accounted)
    (alike : World.Alike before.world after.world)
    (registry_eq : after.registry = before.registry) (frame_eq : after.frame = before.frame) :
    after.Accounted := by
  apply accounted.same
  · rw [entity, entity, frame_eq]
  · rw [frame_eq]
  · exact alike.tidy accounted.tidy
  · intro index
    rw [registry_eq]
  · exact alike.generation_eq
  · intro id alive
    rw [alike.isAlive_eq]
    exact alive

/-! ## Changes of single instructions -/

/-- Changing what scripts keep on an entity touches no slot. -/
theorem alike_modifyActor (execution : Execution World) (change : ActorState → ActorState) :
    World.Alike execution.world (execution.modifyActor change).world := by
  rw [world_modifyActor]
  split
  · exact ⟨rfl, rfl⟩
  · exact World.alike_modifyState _ _ _

/-- No change takes a slot away. -/
theorem size_change {before after : Execution World}
    (change : Change session instruction before after) :
    before.world.slots.size ≤ after.world.slots.size := by
  cases change with
  | adjust change _ => exact Nat.le_of_eq (alike_modifyActor before change).size_eq.symm
  | store ref field _ value _ =>
      exact Nat.le_of_eq (World.alike_writeField before.world ref field value).size_eq.symm
  | cause _ effect =>
      rw [world_cause_inMemory]
      obtain ⟨noted, slots_eq, _, possible⟩ :=
        World.applied before.world before.entity effect
      rw [← slots_eq]
      generalize before.world.apply before.entity effect = outcome at possible
      cases possible with
      | idle _ => exact Nat.le_refl _
      | spawns kind sector => exact World.size_spawn kind sector
      | changes _ id _ => exact Nat.le_of_eq (World.alike_modify noted id _).size_eq.symm
      | @removes id _ => exact Nat.le_of_eq (World.size_remove noted id).symm
  | jump _ => exact Nat.le_refl _
  | draw _ _ => exact Nat.le_refl _
  | drawDisplay _ _ => exact Nat.le_refl _
  | write _ _ _ => exact Nat.le_refl _
  | read _ _ _ => exact Nat.le_refl _
  | ask _ => exact Nat.le_refl _
  | stop => exact Nat.le_refl _

/-- A frame that spawns an entity. -/
theorem accounted_spawn {before after : Execution World} {noted : World}
    (accounted : before.Accounted) (alike : World.Alike before.world noted)
    (small : noted.slots.size < UInt32.size) (kind : Word) (sector : Option Word)
    (world_eq : after.world = (noted.spawn kind sector).2)
    (registry_eq : after.registry = before.registry) (frame_eq : after.frame = before.frame) :
    after.Accounted := by
  have tidy := alike.tidy accounted.tidy
  apply accounted.same
  · rw [entity, entity, frame_eq]
  · rw [frame_eq]
  · rw [world_eq]
    exact tidy.spawn kind sector small
  · intro index
    rw [registry_eq]
  · rw [world_eq, World.generation_spawn]
    exact alike.generation_eq
  · intro id alive
    rw [← alike.isAlive_eq, World.isAlive_iff_generation] at alive
    rw [world_eq, World.isAlive_iff_generation, World.generation_spawn,
      World.isOccupied_spawn kind sector tidy small, alive.1]
    exact ⟨Bool.or_true _, alive.2⟩

/-- The entity of a frame that goes on is alive. -/
theorem Accounted.isAlive {execution : Execution World} {noted : World} {id : EntityId}
    (accounted : execution.Accounted) (running : execution.frame.termination = .running)
    (own : execution.entity = some id) (alike : World.Alike execution.world noted) :
    noted.isAlive id = true := by
  rw [alike.isAlive_eq]
  exact accounted.alive (by simp [running]) id own

/-- A frame that removes its own entity is stopped by that. -/
theorem accounted_removal {before after : Execution World} {noted : World} {id : EntityId}
    (accounted : before.Accounted) (running : before.frame.termination = .running)
    (own : before.entity = some id) (alike : World.Alike before.world noted)
    (world_eq : after.world = noted.remove id) (registry_eq : after.registry = before.registry)
    (entity_eq : after.entity = some id) (quiet : after.frame.termination = .deletedQuiet) :
    after.Accounted := by
  have noisy : before.frame.termination ≠ .deletedQuiet := by
    rw [running]
    decide
  have alive : noted.isAlive id = true := accounted.isAlive running own alike
  have watermark_eq : ∀ index, after.registry.watermark index = noted.generation index := by
    intro index
    rw [registry_eq, alike.generation_eq]
    exact accounted.elsewhere index fun quiet => absurd quiet noisy
  constructor
  · rw [world_eq]
    exact World.Tidy.remove alive (alike.tidy accounted.tidy)
  · intro other other_own
    exact accounted.more other (own.trans (entity_eq.symm.trans other_own))
  · intro index apart
    rw [watermark_eq, world_eq, World.generation_remove alive,
      if_neg (apart quiet id entity_eq)]
  · exact fun noisy => absurd quiet noisy
  · intro _
    refine ⟨id, entity_eq, ?_, ?_⟩
    · rw [watermark_eq]
      exact (World.isAlive_iff_generation.1 alive).2
    · rw [world_eq, World.generation_remove alive, if_pos rfl]

/-- A request to delete does not count as a removal. -/
theorem accounted_requestDelete {execution : Execution World} (accounted : execution.Accounted) :
    execution.requestDelete.Accounted := by
  apply accounted.sameMachine (toMachine_requestDelete execution)
  · rw [entity, entity, frame_requestDelete, Frame.stop_eq]
  · rw [frame_requestDelete, Frame.stop_eq]
    by_cases running : execution.frame.termination = .running
    · simp [Frame.isRunning, running]
    · simp [Frame.isRunning, running]

/-- Whatever a plain instruction changes, the accounts stay right and the world is lived
on, as long as there is room for new entities. -/
theorem accounted_change {before after : Execution World}
    (change : Change session instruction before after) (accounted : before.Accounted)
    (small : after.world.slots.size < UInt32.size) :
    after.Accounted ∧ World.Succeeds before.world after.world := by
  have enough : before.world.slots.size < UInt32.size :=
    Nat.lt_of_le_of_lt (size_change change) small
  cases change with
  | jump _ => exact ⟨accounted.sameMachine rfl rfl Iff.rfl, .refl _⟩
  | stop => exact ⟨accounted_requestDelete accounted, .refl _⟩
  | draw _ _ => exact ⟨accounted.alike ⟨rfl, rfl⟩ rfl rfl, .refl _⟩
  | drawDisplay _ _ => exact ⟨accounted.alike ⟨rfl, rfl⟩ rfl rfl, .refl _⟩
  | ask _ => exact ⟨accounted.alike ⟨rfl, rfl⟩ rfl rfl, .refl _⟩
  | write id address value =>
      refine ⟨?_, .refl _⟩
      apply accounted.same
      · rfl
      · exact Iff.rfl
      · exact accounted.tidy
      · exact fun index => Registry.watermark_set before.registry id address value index
      · rfl
      · exact fun _ alive => alive
  | adjust change _ =>
      have alike := alike_modifyActor before change
      refine ⟨accounted.alike alike ?_ ?_, alike.succeeds⟩
      · exact registry_modifyActor before change
      · exact frame_modifyActor before change
  | read ref field _ =>
      have alike := World.alike_countFieldCall before.world
      exact ⟨accounted.alike alike rfl rfl, alike.succeeds⟩
  | store ref field _ value _ =>
      have alike := World.alike_writeField before.world ref field value
      exact ⟨accounted.alike alike rfl rfl, alike.succeeds⟩
  | cause running effect =>
      have frame_eq := frame_cause_inMemory before effect
      have world_eq := world_cause_inMemory before effect
      rw [world_eq] at small
      obtain ⟨noted, slots_eq, free_eq, possible⟩ :=
        World.applied before.world before.entity effect
      have alike := World.alike_of_slots_eq slots_eq free_eq
      have succeeds := alike.succeeds
      generalize before.world.apply before.entity effect = outcome
        at possible frame_eq world_eq small
      cases possible with
      | idle _ =>
          rw [world_eq]
          exact ⟨accounted.alike (world_eq ▸ alike) (registry_cause before effect) frame_eq,
            succeeds⟩
      | spawns kind sector =>
          have fits : noted.slots.size < UInt32.size := by
            rw [slots_eq]
            exact enough
          constructor
          · exact accounted_spawn accounted alike fits kind sector world_eq
              (registry_cause before effect) frame_eq
          · rw [world_eq]
            exact succeeds.trans (World.succeeds_spawn kind sector (alike.tidy accounted.tidy) fits)
      | @changes _ id change _ =>
          have changed := alike.trans (World.alike_modify noted id change)
          rw [world_eq]
          exact ⟨accounted.alike (world_eq ▸ changed) (registry_cause before effect) frame_eq,
            changed.succeeds⟩
      | @removes id own =>
          have alive : noted.isAlive id = true := accounted.isAlive running own alike
          constructor
          · apply accounted_removal accounted running own alike world_eq
              (registry_cause before effect)
            · rw [entity, frame_eq, Frame.stop_eq]
              exact own
            · rw [frame_eq, Frame.stop_eq]
              simp [Frame.isRunning, running]
          · rw [world_eq]
            exact succeeds.trans (World.succeeds_remove alive (accounted.more id own))

/-! ## Runs -/

/-- No run takes a slot away. -/
theorem keeps_size (session : Session) (bound : Nat) :
    Keeps session fun execution : Execution World => bound ≤ execution.world.slots.size :=
  .of_machine (fun machine => bound ≤ machine.world.slots.size) fun change start =>
    Nat.le_trans start (size_change change)

/-- A frame runs for one entity, or for none. -/
theorem keeps_entity (session : Session) (owner : Option EntityId) :
    Keeps session fun execution : Execution World => execution.entity = owner where
  countStep start := start
  moveTo _ start := start
  enter _ start := start
  leave start := start
  requestDelete start := by
    rw [entity, frame_requestDelete, Frame.stop_eq]
    exact start
  change change start := by
    obtain ⟨cursor, termination, frame_eq⟩ := change.frame_eq
    rw [entity, frame_eq]
    exact start

/-- As long as there is room for new entities, the accounts stay right and the world is
lived on. -/
theorem keeps_accounted (session : Session) (world : World) :
    Keeps session fun execution : Execution World => execution.world.slots.size < UInt32.size →
      execution.Accounted ∧ World.Succeeds world execution.world where
  countStep start small :=
    ⟨(start small).1.sameMachine rfl rfl Iff.rfl, (start small).2⟩
  moveTo _ start small :=
    ⟨(start small).1.sameMachine rfl rfl Iff.rfl, (start small).2⟩
  enter _ start small :=
    ⟨(start small).1.sameMachine rfl rfl Iff.rfl, (start small).2⟩
  leave start small :=
    ⟨(start small).1.sameMachine rfl rfl Iff.rfl, (start small).2⟩
  requestDelete start small :=
    ⟨accounted_requestDelete (start small).1, (start small).2⟩
  change change start small := by
    have enough := Nat.lt_of_le_of_lt (size_change change) small
    obtain ⟨accounted, succeeds⟩ := start enough
    obtain ⟨after, succeedsOn⟩ := accounted_change change accounted small
    exact ⟨after, succeeds.trans succeedsOn⟩

/-! ## Spawning -/

/-- The identity of the entity that the attempted instruction spawns, if it spawns one. -/
def spawned? (session : Session) (execution : Execution World) : Option EntityId :=
  match execution.attempted? session with
  | none => none
  | some instruction =>
      match instruction.opcode with
      | .spawn | .spawnInto =>
          some (execution.world.spawn (instruction.operand 0)
            (execution.entity.bind execution.world.sectorOf?)).1
      | _ => none

/-- Keeping the handle of a spawned entity does not touch the world. -/
theorem world_spawnInto (execution : Execution World) (kind id : Word) :
    (execution.spawnInto kind id).world =
      (execution.world.apply execution.entity (.spawnInto kind)).2 := by
  have caused := world_cause_inMemory execution (.spawnInto kind)
  unfold cause at caused
  unfold spawnInto
  split
  · rename_i carried
    rw [carried] at caused
    exact caused
  · rename_i carried
    rw [carried] at caused
    exact caused

/-- An instruction that spawns an entity does not end its run, and if the accounts are right
and there is room, the new entity is alive right behind it. -/
theorem attempt_of_spawned? {execution : Execution World} {id : EntityId}
    (spawned : execution.spawned? session = some id) :
    ∃ after, attempt session execution = .settled (.ok .proceed, after) ∧
      (execution.Accounted → execution.world.slots.size < UInt32.size →
        after.world.isAlive id = true) := by
  unfold spawned? at spawned
  split at spawned
  · contradiction
  · rename_i instruction found
    rw [attempt_of_attempted? found]
    split at spawned
    · rename_i opcode_eq
      cases spawned
      simp only [execute, opcode_eq, perform, act, resume]
      refine ⟨_, rfl, ?_⟩
      intro accounted small
      rw [world_cause_inMemory]
      exact World.isAlive_apply accounted.tidy small _ (Or.inl rfl)
    · rename_i opcode_eq
      cases spawned
      simp only [execute, opcode_eq, perform, act, resume]
      refine ⟨_, rfl, ?_⟩
      intro accounted small
      rw [world_spawnInto]
      exact World.isAlive_apply accounted.tidy small _ (Or.inr rfl)
    · contradiction

/-- What a run has spawned is known to the world at its end. -/
theorem knows_of_spawned? {nesting : Nesting} {start : Execution World}
    {moments : List (Moment World)}
    {outcome : Outcome World Unit} (run : Run session nesting start moments outcome)
    (accounted : start.Accounted) (small : outcome.2.world.slots.size < UInt32.size)
    {moment : Moment World} (member : moment ∈ moments) {id : EntityId}
    (spawned : moment.execution.spawned? session = some id) : outcome.2.world.Knows id := by
  obtain ⟨after, attempt_eq, aliveBehind⟩ := attempt_of_spawned? spawned
  have kept := keeps_accounted session
  have grown : moment.execution.world.slots.size ≤ after.world.slots.size :=
    (keeps_size session _).settled (Nat.le_refl _) attempt_eq
  have grownMore : after.world.slots.size ≤ outcome.2.world.slots.size :=
    run.kept_from (keeps_size session _) member attempt_eq (Nat.le_refl _)
  have smallBehind := Nat.lt_of_le_of_lt grownMore small
  have smallHere := Nat.lt_of_le_of_lt grown smallBehind
  have here := (run.kept (kept start.world) fun _ => ⟨accounted, .refl _⟩).1 moment member
  have behind := (kept start.world).settled here attempt_eq smallBehind
  have succeeds : World.Succeeds after.world outcome.2.world :=
    (run.kept_from (kept after.world) member attempt_eq (fun _ => ⟨behind.1, .refl _⟩) small).2
  exact World.Knows.later (Or.inr (aliveBehind (here smallHere).1 smallHere)) succeeds

end Execution

end ActorScript
