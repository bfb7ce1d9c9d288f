import ActorScript.Host

/-!
# Frames

A frame is one run of the machine, on behalf of an entity and a player.  The
first request to stop a frame decides how it ends.
-/

namespace ActorScript

/-- Whether a frame goes on, or how it has been stopped. -/
inductive Termination where
  | running
  /-- The entity is to be deleted when the frame has ended. -/
  | deleted
  /-- The entity is gone already. -/
  | deletedQuiet
deriving DecidableEq, Repr

/-- What is left to do when a frame has ended. -/
inductive FrameOutcome where
  | normal
  | delete
  | deleteQuiet
deriving DecidableEq, Repr

/-- The outcome of a frame that ended in the given way. -/
def Termination.outcome : Termination → FrameOutcome
  | running => .normal
  | deleted => .delete
  | deletedQuiet => .deleteQuiet

/-- One run of the machine. -/
structure Frame where
  /-- The entity and the player of the frame. -/
  address : Address := {}
  /-- A number from whoever started the frame, such as a distance. -/
  extra : Word := 0
  /-- The offset of the next instruction. -/
  cursor : Nat
  termination : Termination := .running
  /-- The number of nested runs. -/
  depth : Nat := 0
  /-- The number of instructions attempted. -/
  steps : Nat := 0
deriving DecidableEq, Repr

namespace Frame

/-- A frame has not been stopped. -/
def isRunning (frame : Frame) : Bool :=
  frame.termination = .running

/-- What a host learns of a frame. -/
def context (frame : Frame) : FrameContext :=
  ⟨frame.address, frame.extra⟩

/-- Stops a frame in the given way, unless it has been stopped before. -/
def stop (frame : Frame) (termination : Termination) : Frame :=
  if frame.isRunning then { frame with termination } else frame

/-- Stops a frame and asks for the deletion of its entity. -/
def requestDelete (frame : Frame) : Frame :=
  frame.stop .deleted

/-- Stops a frame whose entity is gone. -/
def requestQuietDelete (frame : Frame) : Frame :=
  frame.stop .deletedQuiet

end Frame

end ActorScript
