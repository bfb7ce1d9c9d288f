import ActorScript.Config
import ActorScript.Machine.Error
import ActorScript.Machine.Frame
import ActorScript.Program
import ActorScript.Random
import ActorScript.Registry

/-!
# The state of the machine

A session fixes the program and the settings.  The machine holds all that
changes: the world of the host, the values of the variables and two random
streams.  The second stream serves the display alone, so that its draws do not
shift those that the game depends on.  An execution is the machine together with
the frame that it runs.
-/

namespace ActorScript

/-- What does not change while a program runs. -/
structure Session where
  program : Program
  config : Config := {}
deriving DecidableEq, Repr

/-- What changes while a program runs. -/
structure Machine (W : Type) where
  /-- The world of the host. -/
  world : W
  registry : Registry
  random : Random
  /-- The stream that only the display depends on. -/
  displayRandom : Random

/-- Sets the seed of the display stream apart from that of the main one. -/
def displaySalt : UInt64 := 0x9E3779B97F4A7C15

/-- The machine at the start of a session. -/
def Machine.new {W : Type} (session : Session) (world : W) : Machine W where
  world := world
  registry := .new session.program.vars session.config.maxPlayers
  random := .ofSeed session.config.seed
  displayRandom := .ofSeed (session.config.seed ^^^ displaySalt)

/-- The machine and the frame that it runs. -/
structure Execution (W : Type) extends Machine W where
  frame : Frame

namespace Execution

variable {W : Type}

/-- The entity of the frame. -/
def entity (execution : Execution W) : Option EntityId :=
  execution.frame.address.entity

/-- Changes the frame. -/
def withFrame (execution : Execution W) (change : Frame → Frame) : Execution W :=
  { execution with frame := change execution.frame }

/-- Moves the cursor. -/
def moveTo (execution : Execution W) (cursor : Nat) : Execution W :=
  execution.withFrame fun frame => { frame with cursor }

/-- Counts an attempted instruction. -/
def countStep (execution : Execution W) : Execution W :=
  execution.withFrame fun frame => { frame with steps := frame.steps + 1 }

/-- Enters a nested run at an offset. -/
def enter (execution : Execution W) (start : Nat) : Execution W :=
  execution.withFrame fun frame => { frame with cursor := start, depth := frame.depth + 1 }

/-- Leaves a nested run. -/
def leave (execution : Execution W) : Execution W :=
  execution.withFrame fun frame => { frame with depth := frame.depth - 1 }

/-- Stops the frame and asks for the deletion of its entity. -/
def requestDelete (execution : Execution W) : Execution W :=
  execution.withFrame Frame.requestDelete

/-- Stops the frame, whose entity is gone. -/
def requestQuietDelete (execution : Execution W) : Execution W :=
  execution.withFrame Frame.requestQuietDelete

/-! ## Variables -/

/-- Reads a variable for the entity and the player of the frame. -/
def var (execution : Execution W) (id : Word) : Word :=
  execution.registry.get id execution.frame.address

/-- Writes a variable for the entity and the player of the frame. -/
def setVar (execution : Execution W) (id value : Word) : Execution W :=
  { execution with registry := execution.registry.set id execution.frame.address value }

/-- The second argument of a comparison or an update. -/
def argument (execution : Execution W) (source : Source) (word : Word) : Word :=
  match source with
  | .literal => word
  | .var => execution.var word

/-! ## Entities -/

section Host

variable [Host W]

/-- What scripts keep on the entity of the frame; all zero when there is none. -/
def actorState (execution : Execution W) : ActorState :=
  (execution.entity.bind (Host.stateOf? execution.world)).getD {}

/-- Changes what scripts keep on the entity of the frame. -/
def modifyActor (execution : Execution W) (change : ActorState → ActorState) : Execution W :=
  match execution.entity with
  | none => execution
  | some id => { execution with world := Host.modifyState execution.world id change }

/-- The entity whose handle a variable holds. -/
def entityIn? (execution : Execution W) (id : Word) : Option EntityId :=
  let handle := execution.var id
  if handle < 0 then none else Host.entityAt? execution.world handle

/-- The entity that a handle operand names. -/
def entityOf? (execution : Execution W) (handle : Word) : Option EntityId :=
  if handle = selfHandle then execution.entity else execution.entityIn? handle

/-- The player that a handle operand names. -/
def playerOf? (execution : Execution W) (handle : Word) : Option PlayerId :=
  if handle = selfHandle then execution.frame.address.player
  else PlayerId.ofWord? (execution.var handle)

/-- The sector that a handle operand names. -/
def sectorOf? (execution : Execution W) (handle : Word) : Option Word :=
  if handle = selfHandle then execution.entity.bind (Host.sectorOf? execution.world)
  else some (execution.var handle) |>.filter (0 ≤ ·)

/-- The wall that a handle operand names.  No frame belongs to a wall. -/
def wallOf? (execution : Execution W) (handle : Word) : Option Word :=
  if handle = selfHandle then none
  else some (execution.var handle) |>.filter (0 ≤ ·)

/-- The thing whose field is meant by a handle operand. -/
def fieldRef? (execution : Execution W) (target : FieldTarget) (handle : Word) :
    Option FieldRef :=
  match target with
  | .actor => (execution.entityOf? handle).map .actor
  | .player => (execution.playerOf? handle).map .player
  | .sector => (execution.sectorOf? handle).map .sector
  | .wall => (execution.wallOf? handle).map .wall
  | .userDef => some .userDef

/-- Reads a field into a variable; what cannot be read is zero. -/
def loadField (execution : Execution W) (target : FieldTarget) (handle field param id : Word) :
    Execution W :=
  match Host.access execution.world target field with
  | .unknown => execution.setVar id 0
  | .readOnly | .readWrite =>
      match execution.fieldRef? target handle with
      | none => execution.setVar id 0
      | some ref =>
          let (value, world) := Host.readField execution.world ref field param
          { execution with world }.setVar id (value.getD 0)

/-- Writes a variable into a field that may be written. -/
def storeField (execution : Execution W) (target : FieldTarget) (handle field param id : Word) :
    Execution W :=
  match Host.access execution.world target field with
  | .unknown | .readOnly => execution
  | .readWrite =>
      match execution.fieldRef? target handle with
      | none => execution
      | some ref =>
          { execution with
            world := Host.writeField execution.world ref field param (execution.var id) }

/-- Asks the host. -/
def ask (execution : Execution W) (probe : Probe) : Bool × Execution W :=
  let (answer, world) := Host.probe execution.world execution.frame.context probe
  (answer, { execution with world })

/-- Carries out an effect.  The frame stops if its entity is removed by it. -/
def carryOut (execution : Execution W) (effect : Effect) : Option Word × Execution W :=
  match Host.apply execution.world execution.frame.context effect with
  | (.value word, world) => (some word, { execution with world })
  | (.removed, world) => (none, { execution with world }.requestQuietDelete)

/-- Carries out an effect whose answer does not matter. -/
def cause (execution : Execution W) (effect : Effect) : Execution W :=
  (execution.carryOut effect).2

end Host

end Execution

end ActorScript
