import ActorScript.Opcode
import ActorScript.World.Effect

/-!
# Hosts

The machine owns no world.  Entities, players, sectors and walls belong to a
host, and the machine reaches them through the operations of `Host` alone,
looking everything up anew each time, so that a handle may go stale in the middle
of a frame.  A host is a type of worlds; an operation that changes its world
gives the world afterwards.  Whatever a host remembers is part of its world, so a
query has one answer in one world.  `World` is a host that is kept in memory.
-/

namespace ActorScript

/-- What scripts may do with a field. -/
inductive Access where
  | readWrite
  | readOnly
  | unknown
deriving DecidableEq, Repr

/-- The thing whose field is meant. -/
inductive FieldRef where
  | actor (id : EntityId)
  | player (id : PlayerId)
  | sector (number : Word)
  | wall (number : Word)
  | userDef
deriving DecidableEq, Repr

/-- The kind of thing whose field is meant. -/
def FieldRef.target : FieldRef → FieldTarget
  | .actor _ => .actor
  | .player _ => .player
  | .sector _ => .sector
  | .wall _ => .wall
  | .userDef => .userDef

/-- The frame that a probe or an effect comes from. -/
structure FrameContext where
  /-- The entity and the player of the frame. -/
  address : Address
  /-- A number from whoever started the frame. -/
  extra : Word
deriving DecidableEq, Repr

/-- What the machine needs of a world. -/
class Host (W : Type) where
  /-- The living entity that scripts name by a word. -/
  entityAt? (world : W) (handle : Word) : Option EntityId
  /-- An entity is alive. -/
  isAlive (world : W) (id : EntityId) : Bool
  /-- The kind of an entity, which decides on its scripts. -/
  kindOf? (world : W) (id : EntityId) : Option Word
  /-- The sector where an entity is; none when it is outside the world. -/
  sectorOf? (world : W) (id : EntityId) : Option Word
  /-- The status of an entity. -/
  statusOf? (world : W) (id : EntityId) : Option Status
  /-- What scripts keep on an entity. -/
  stateOf? (world : W) (id : EntityId) : Option ActorState
  /-- Changes what scripts keep on an entity. -/
  modifyState (world : W) (id : EntityId) (change : ActorState → ActorState) : W
  /-- The player nearest to an entity and its distance. -/
  nearestPlayer? (world : W) (id : EntityId) : Option (PlayerId × Word)
  /-- What scripts may do with a field. -/
  access (world : W) (target : FieldTarget) (field : Word) : Access
  /-- Reads a field; none when there is nothing that could have it. -/
  readField (world : W) (ref : FieldRef) (field param : Word) : Option Word × W
  /-- Writes a field that may be written. -/
  writeField (world : W) (ref : FieldRef) (field param value : Word) : W
  /-- Answers a probe. -/
  probe (world : W) (context : FrameContext) (probe : Probe) : Bool × W
  /-- Carries out an effect. -/
  apply (world : W) (context : FrameContext) (effect : Effect) : EffectAnswer × W
  /-- Moves an entity after a frame that ended normally. -/
  advanceMotion (world : W) (id : EntityId) : W
  /-- An active entity may count down to sleep.  Unless the host says otherwise,
  it may. -/
  maySleep : W → EntityId → Bool := fun _ _ => true
  /-- Gives an entity a status. -/
  setStatus (world : W) (id : EntityId) (status : Status) : W
  /-- Sees to the sleep of a standable entity.  Unless the host says otherwise,
  nothing is done. -/
  checkStandable : W → EntityId → W := fun world _ => world
  /-- Frees every player whom an entity squishes. -/
  releasePlayers (world : W) (id : EntityId) : W
  /-- Deletes an entity. -/
  delete (world : W) (id : EntityId) : W
  /-- The entities that a pass goes through, in order. -/
  tickOrder (world : W) : List EntityId

end ActorScript
