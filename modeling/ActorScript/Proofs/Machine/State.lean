import ActorScript.Machine.State
import ActorScript.World.Field

/-!
# The frame of an execution

Moving the cursor, counting a step, entering and leaving a nested run and stopping
change the frame alone, each of them one part of it.
-/

namespace ActorScript

namespace Execution

variable {W : Type}

@[simp]
theorem toMachine_withFrame (execution : Execution W) (change : Frame → Frame) :
    (execution.withFrame change).toMachine = execution.toMachine :=
  rfl

@[simp]
theorem frame_withFrame (execution : Execution W) (change : Frame → Frame) :
    (execution.withFrame change).frame = change execution.frame :=
  rfl

@[simp]
theorem toMachine_moveTo (execution : Execution W) (cursor : Nat) :
    (execution.moveTo cursor).toMachine = execution.toMachine :=
  rfl

@[simp]
theorem frame_moveTo (execution : Execution W) (cursor : Nat) :
    (execution.moveTo cursor).frame = { execution.frame with cursor } :=
  rfl

@[simp]
theorem toMachine_countStep (execution : Execution W) :
    execution.countStep.toMachine = execution.toMachine :=
  rfl

@[simp]
theorem frame_countStep (execution : Execution W) :
    execution.countStep.frame = { execution.frame with steps := execution.frame.steps + 1 } :=
  rfl

@[simp]
theorem toMachine_enter (execution : Execution W) (start : Nat) :
    (execution.enter start).toMachine = execution.toMachine :=
  rfl

@[simp]
theorem frame_enter (execution : Execution W) (start : Nat) :
    (execution.enter start).frame =
      { execution.frame with cursor := start, depth := execution.frame.depth + 1 } :=
  rfl

@[simp]
theorem toMachine_leave (execution : Execution W) :
    execution.leave.toMachine = execution.toMachine :=
  rfl

@[simp]
theorem frame_leave (execution : Execution W) :
    execution.leave.frame = { execution.frame with depth := execution.frame.depth - 1 } :=
  rfl

@[simp]
theorem toMachine_requestDelete (execution : Execution W) :
    execution.requestDelete.toMachine = execution.toMachine :=
  rfl

@[simp]
theorem frame_requestDelete (execution : Execution W) :
    execution.requestDelete.frame = execution.frame.stop .deleted :=
  rfl

@[simp]
theorem toMachine_requestQuietDelete (execution : Execution W) :
    execution.requestQuietDelete.toMachine = execution.toMachine :=
  rfl

@[simp]
theorem frame_requestQuietDelete (execution : Execution W) :
    execution.requestQuietDelete.frame = execution.frame.stop .deletedQuiet :=
  rfl

section Host

variable [Host W]

/-- What scripts keep on an entity is part of the world. -/
@[simp]
theorem frame_modifyActor (execution : Execution W) (change : ActorState → ActorState) :
    (execution.modifyActor change).frame = execution.frame := by
  unfold modifyActor
  split <;> rfl

@[simp]
theorem registry_modifyActor (execution : Execution W) (change : ActorState → ActorState) :
    (execution.modifyActor change).registry = execution.registry := by
  unfold modifyActor
  split <;> rfl

theorem world_modifyActor (execution : Execution W) (change : ActorState → ActorState) :
    (execution.modifyActor change).world =
      match execution.entity with
      | none => execution.world
      | some id => Host.modifyState execution.world id change := by
  unfold modifyActor
  split <;> simp_all

@[simp]
theorem world_cause (execution : Execution W) (effect : Effect) :
    (execution.cause effect).world =
      (Host.apply execution.world execution.frame.context effect).2 := by
  unfold cause carryOut
  split <;> simp_all

@[simp]
theorem registry_cause (execution : Execution W) (effect : Effect) :
    (execution.cause effect).registry = execution.registry := by
  unfold cause carryOut
  split <;> simp_all

/-- An effect stops the frame exactly when it removes the entity of the frame. -/
theorem frame_cause (execution : Execution W) (effect : Effect) :
    (execution.cause effect).frame =
      match (Host.apply execution.world execution.frame.context effect).1 with
      | .value _ => execution.frame
      | .removed => execution.frame.stop .deletedQuiet := by
  unfold cause carryOut
  split <;> simp_all

end Host

/-- Causing an effect in the world that is kept in memory. -/
theorem world_cause_inMemory (execution : Execution World) (effect : Effect) :
    (execution.cause effect).world = (execution.world.apply execution.entity effect).2 :=
  world_cause execution effect

/-- An effect on the world in memory stops the frame exactly when it removes the entity of
the frame. -/
theorem frame_cause_inMemory (execution : Execution World) (effect : Effect) :
    (execution.cause effect).frame =
      match (execution.world.apply execution.entity effect).1 with
      | .value _ => execution.frame
      | .removed => execution.frame.stop .deletedQuiet :=
  frame_cause execution effect

end Execution

namespace Frame

/-- A request to stop changes nothing but how the frame ends. -/
theorem stop_eq (frame : Frame) (termination : Termination) :
    frame.stop termination =
      { frame with termination :=
          if frame.isRunning then termination else frame.termination } := by
  unfold stop
  split <;> rfl

theorem isRunning_iff {frame : Frame} :
    frame.isRunning = true ↔ frame.termination = .running := by
  simp [isRunning]

/-- The first request to stop a frame stays. -/
theorem stop_of_not_isRunning {frame : Frame} (stopped : frame.isRunning = false)
    (termination : Termination) : frame.stop termination = frame := by
  simp [stop, stopped]

/-- A frame does not go on after a request to delete its entity. -/
@[simp]
theorem isRunning_stop_deleted (frame : Frame) :
    (frame.stop .deleted).isRunning = false := by
  unfold stop
  split
  · rfl
  · simp_all

end Frame

namespace Execution

/-- A request to delete stops the frame. -/
theorem requestDelete_ne_running {W : Type} (execution : Execution W) :
    execution.requestDelete.frame.termination ≠ .running := by
  rw [frame_requestDelete, ne_eq, ← Frame.isRunning_iff, Frame.isRunning_stop_deleted]
  decide

end Execution

end ActorScript
