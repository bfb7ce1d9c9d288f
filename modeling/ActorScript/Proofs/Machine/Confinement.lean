import ActorScript.Proofs.Machine.Reachable
import ActorScript.Proofs.World.Confined
import Mathlib

/-!
# One entity at a time

Scripts find other entities by their handles, spawn and remove, and run nested code, and they
can fail at any point.  All the same a call for one entity lets the others be, except that it
may move them and write their fields.
-/

namespace ActorScript

open World

namespace Execution

variable {session : Session} {instruction : Instruction} {owner : Option EntityId}
  {before : World}

/-- A frame on behalf of the owner, if of anybody, has had its way with nobody else. -/
structure Within (owner : Option EntityId) (before : World) (execution : Execution World) :
    Prop where
  own : ∀ id, execution.entity = some id → owner = some id
  confined : execution.world.slots.size < UInt32.size → Confined owner before execution.world

/-- Registers are adjusted for the entity of the frame alone, and whatever an instruction does
to another entity is an effect or the write of a field. -/
theorem confined_change {execution after : Execution World}
    (change : Change session instruction execution after)
    (own : ∀ id, execution.entity = some id → owner = some id)
    (small : execution.world.slots.size < UInt32.size) (tidy : execution.world.Tidy) :
    Confined owner execution.world after.world := by
  cases change with
  | adjust change _ =>
      rw [world_modifyActor]
      split
      · exact .refl tidy owner
      · exact confined_modify tidy (.inl (own _ ‹_›))
  | read ref field _ => exact confined_of_slots_eq tidy rfl rfl rfl
  | store ref field _ value writable => exact confined_writeField tidy writable value
  | cause _ effect =>
      rw [world_cause_inMemory]
      exact confined_apply tidy small own effect
  | _ => exact .refl tidy owner

/-- A frame stays within the bounds of its owner. -/
theorem keeps_within (session : Session) (owner : Option EntityId) (before : World) :
    Keeps session (Within owner before) where
  countStep start := ⟨start.own, start.confined⟩
  moveTo _ start := ⟨start.own, start.confined⟩
  enter _ start := ⟨start.own, start.confined⟩
  leave start := ⟨start.own, start.confined⟩
  requestDelete {execution} start := by
    refine ⟨?_, start.confined⟩
    rw [(keeps_entity session execution.entity).requestDelete rfl]
    exact start.own
  change {_ execution after} change start := by
    refine ⟨?_, fun small => ?_⟩
    · rw [(keeps_entity session execution.entity).change change rfl]
      exact start.own
    · have enough := Nat.lt_of_le_of_lt (size_change change) small
      have earlier := start.confined enough
      exact earlier.trans (confined_change change start.own enough earlier.tidy)

end Execution

namespace Machine

open Execution

variable {session : Session} {machine : Machine World} {owner : Option EntityId} {id : EntityId}

theorem confined_settle (tidy : machine.world.Tidy) (own : owner = some id)
    (occasion : Occasion) :
    Confined owner machine.world (machine.settle id occasion).world := by
  apply kept_settle (Confined owner machine.world) (.refl tidy owner)
  intro world after settling earlier
  apply earlier.trans
  cases settling with
  | count | tire | sleep => exact confined_modify earlier.tidy (.inl own)
  | move | check => exact confined_of_slots_eq earlier.tidy rfl rfl rfl

theorem confined_conclude (tidy : machine.world.Tidy) (own : owner = some id)
    (outcome : FrameOutcome) :
    Confined owner machine.world (machine.conclude id outcome).world := by
  cases outcome with
  | normal | deleteQuiet => exact .refl tidy owner
  | delete =>
      have released : Confined owner machine.world (machine.world.releasePlayers id) :=
        confined_of_slots_eq tidy rfl rfl rfl
      exact released.trans (confined_delete released.tidy own)

section Calls

variable (limited : session.config.maxSteps ≠ 0) {call : Call} (single : call ≠ .all)
include limited single

/-- Whoever a call is for, what it does is confined to that entity. -/
theorem confined_call (reachable : machine.world.Reachable)
    (small : (machine.call session call).2.world.slots.size < UInt32.size) :
    Confined call.owner? machine.world (machine.call session call).2.world := by
  have enough := Nat.lt_of_le_of_lt (size_call machine call limited single) small
  have tidy := reachable.tidy enough
  -- Slots only grow, so a bound at the end holds throughout; it is carried along as a premise.
  apply kept_single (fun middle : Machine World => middle.world.slots.size < UInt32.size →
    Confined call.owner? machine.world middle.world) single (fun _ => .refl tidy _) _ _ _ small
  · intro start starts
    have within : start.Within call.owner? machine.world := by
      obtain ⟨world, address, extra, cursor, rfl, same, owned, _⟩ := starts.eq_begin single
      refine ⟨fun id own => (owned id own).2, fun _ => ?_⟩
      rcases same with rfl | ⟨id, change, own, _, rfl⟩
      · exact .refl tidy _
      · exact confined_modify tidy (.inl own)
    obtain ⟨moments, run⟩ := exists_run limited .frame start
    exact (run.kept (keeps_within session call.owner? machine.world) within).2.confined
  · intro after id occasion own ended settled_small
    rw [(alike_settle after id occasion).size_eq] at settled_small
    have earlier := ended settled_small
    exact earlier.trans (confined_settle earlier.tidy own occasion)
  · intro after id outcome own _ ended concluded_small
    rw [size_conclude] at concluded_small
    have earlier := ended concluded_small
    exact earlier.trans (confined_conclude earlier.tidy own outcome)

/-- Whoever was there before a call for somebody else, or for nobody, is there afterwards with
the same kind, sector, status, registers, timers and distance to the player, whether the call
succeeds or fails.  Only its position can be another one, and the values of those of its fields
that are declared for writing. -/
theorem entity?_call_of_ne (reachable : machine.world.Reachable)
    (small : (machine.call session call).2.world.slots.size < UInt32.size) {other : EntityId}
    {entity : Entity} (apart : call.owner? ≠ some other)
    (found : machine.world.entity? other = some entity) :
    ∃ position fields,
      (machine.call session call).2.world.entity? other =
          some { entity with position, fields } ∧
        ∀ field, machine.world.access .actor field ≠ .readWrite →
          fields.get? field = entity.fields.get? field := by
  have confined := confined_call limited single reachable small
  obtain ⟨_, still, position, fields, rfl, kept⟩ := confined.brushed other entity apart found
  exact ⟨position, fields, still, kept⟩

end Calls

/-- A script that sets a register, finds another entity by its handle, writes two of its fields,
pushes it along and removes its own entity. -/
def intruding : Session where
  program := {
    code := #[0x33, 4, 0x61, 0, 2, 0, 1, 0x61, 0, 3, 0, 1, 0x78, 0, 1, 1, 1, 0x79, -1, 0x07]
    vars := #[{ name := "there", scope := .global, initial := 1 },
      { name := "amount", scope := .global, initial := 5 }]
    actors := Table.empty.insert 1 { tick := some 0 } }
  config := { maxSteps := 16 }

/-- A world with two actors, the second of them asleep and with two fields, of which one may be
written. -/
def sharedWorld : World :=
  ((((((World.new 1 0).spawn 1 (some 0)).2.spawn 2 (some 0)).2.declareField .actor 2
    .readOnly).declareField .actor 3 .readWrite).setStatus ⟨1, 0⟩ .dormant).setField
      (.actor ⟨1, 0⟩) 2 9

/-- The shared world after the script. -/
def intrudedWorld : World :=
  ((Machine.new intruding sharedWorld).call intruding (.tick ⟨0, 0⟩)).2.world

/-- The sleeper is moved and has a new value in one field, and sleeps on. -/
theorem entity?_intrudedWorld :
    intrudedWorld.isAlive ⟨0, 0⟩ = false ∧
      ∃ later, intrudedWorld.entity? ⟨1, 0⟩ = some later ∧ later.kind = 2 ∧
        later.status = .dormant ∧ later.state = {} ∧ later.position = ⟨5, 5, 5⟩ ∧
          later.fields.get? 2 = some 9 ∧ later.fields.get? 3 = some 5 := by
  have gone : intrudedWorld.isAlive ⟨0, 0⟩ = false := by
    cbv
  have size_eq : intrudedWorld.slots.size = 2 := by
    cbv
  have touched : (intrudedWorld.entity? ⟨1, 0⟩).map
      (fun later => (later.position, later.fields.get? 3)) = some (⟨5, 5, 5⟩, some 5) := by
    cbv
  have limited : intruding.config.maxSteps ≠ 0 := by
    decide
  have reachable : sharedWorld.Reachable :=
    .modify _ _ (.modify _ _ (.rest (.spawn 2 (some 0) (.spawn 1 (some 0) (.new 1 0))) rfl rfl))
  have small : intrudedWorld.slots.size < UInt32.size := by
    rw [size_eq]
    decide
  have apart : (Call.tick ⟨0, 0⟩).owner? ≠ some ⟨1, 0⟩ := by
    decide
  have found : sharedWorld.entity? ⟨1, 0⟩ =
      some { kind := 2
             sector := some 0
             status := .dormant
             fields := Table.empty.insert 2 9
             serial := 1 } := by
    rfl
  have unwritable : sharedWorld.access .actor 2 ≠ .readWrite := by
    have declared : sharedWorld.access .actor 2 = .readOnly := by
      cbv
    rw [declared]
    decide
  obtain ⟨position, fields, still, kept⟩ :=
    @entity?_call_of_ne intruding (Machine.new intruding sharedWorld) limited
      (.tick ⟨0, 0⟩) (by simp) reachable small _ _ apart found
  have kept_field := kept 2 unwritable
  rw [intrudedWorld, still] at touched
  obtain ⟨moved, written⟩ := Prod.mk.inj (Option.some.inj touched)
  exact ⟨gone, _, still, rfl, rfl, rfl, moved, kept_field.trans rfl, written⟩

end Machine

end ActorScript
