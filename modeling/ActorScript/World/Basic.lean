import ActorScript.Host
import ActorScript.Table
import Std.Data.HashMap

/-!
# The world

The world that is kept in memory holds entities in slots, players, and the fields
of everything that scripts can reach.  A vacated slot counts its generation up and
is the first to be taken again.  Effects, deletions and a few other events are
recorded.
-/

namespace ActorScript

/-- A place in space. -/
structure Position where
  x : Word := 0
  y : Word := 0
  z : Word := 0
deriving DecidableEq, Repr

/-- An entity. -/
structure Entity where
  kind : Word
  /-- The sector where the entity is, which need not exist. -/
  sector : Option Word
  status : Status := .active
  state : ActorState := {}
  /-- The distance to the nearest player. -/
  playerDistance : Word := 0
  position : Position := {}
  fields : Table Word := {}
  /-- The number of entities created before. -/
  serial : Nat
deriving DecidableEq, Repr

/-- A player. -/
structure Player where
  fields : Table Word := {}
  /-- The entity that squishes the player at the moment. -/
  squishedBy : Option EntityId := none
deriving DecidableEq, Repr

/-- A slot for entities. -/
structure Slot where
  generation : UInt32
  entity : Option Entity
deriving DecidableEq, Repr

deriving instance Hashable for FieldTarget

/-- A world. -/
structure World where
  slots : Array Slot := #[]
  /-- The empty slots, the last vacated first. -/
  free : List UInt32 := []
  /-- The number of entities created so far. -/
  nextSerial : Nat := 0
  players : Array Player := #[]
  sectorCount : Word
  wallCount : Word
  sectorFields : Std.HashMap (Word × Word) Word := {}
  wallFields : Std.HashMap (Word × Word) Word := {}
  userFields : Std.HashMap Word Word := {}
  /-- The declared fields. -/
  accesses : Std.HashMap (FieldTarget × Word) Access := {}
  /-- The answers to probes; all others are answered in the negative. -/
  answers : Std.HashMap Probe Bool := {}
  /-- The effects of scripts, in order. -/
  effects : Array EffectRecord := #[]
  /-- The entities deleted, in order. -/
  deletions : Array EntityId := #[]
  /-- The number of movement steps. -/
  motions : Nat := 0
  /-- The entities whose sleep has been checked as standable ones, in order. -/
  standableChecks : Array EntityId := #[]
  /-- The number of reads and writes of fields. -/
  fieldCalls : Nat := 0

namespace World

/-- A world without entities and players. -/
def new (sectorCount wallCount : Word) : World :=
  { sectorCount, wallCount }

/-- The slot of an identity, while its generation is the current one. -/
def slot? (world : World) (id : EntityId) : Option Slot :=
  match world.slots[id.index.toNat]? with
  | none => none
  | some slot => if slot.generation = id.generation then some slot else none

/-- The entity with an identity, while it is alive. -/
def entity? (world : World) (id : EntityId) : Option Entity :=
  (world.slot? id).bind (·.entity)

/-- An entity is alive. -/
def isAlive (world : World) (id : EntityId) : Bool :=
  (world.entity? id).isSome

/-- Changes an entity, if it is alive. -/
def modify (world : World) (id : EntityId) (change : Entity → Entity) : World :=
  { world with slots := world.slots.modify id.index.toNat fun slot =>
      if slot.generation = id.generation then
        { slot with entity := slot.entity.map change }
      else slot }

/-- Creates an active entity, in the slot vacated last or in a new one. -/
def spawn (world : World) (kind : Word) (sector : Option Word) : EntityId × World :=
  let entity : Entity := { kind, sector, serial := world.nextSerial }
  match world.free with
  | index :: rest =>
      let generation := (world.slots[index.toNat]?.map (·.generation)).getD 0
      (⟨index, generation⟩,
        { world with
          free := rest
          nextSerial := world.nextSerial + 1
          slots := world.slots.modify index.toNat fun slot =>
            { slot with entity := some entity } })
  | [] =>
      (⟨UInt32.ofNat world.slots.size, 0⟩,
        { world with
          nextSerial := world.nextSerial + 1
          slots := world.slots.push ⟨0, some entity⟩ })

/-- Removes an entity, if it is alive, and vacates its slot. -/
def remove (world : World) (id : EntityId) : World :=
  if world.isAlive id then
    { world with
      free := id.index :: world.free
      slots := world.slots.modify id.index.toNat fun slot =>
        ⟨slot.generation + 1, none⟩ }
  else world

/-- Removes an entity and records its deletion, if it is alive. -/
def delete (world : World) (id : EntityId) : World :=
  if world.isAlive id then
    let removed := world.remove id
    { removed with deletions := removed.deletions.push id }
  else world

/-- Adds a player and gives its number. -/
def addPlayer (world : World) : PlayerId × World :=
  (UInt16.ofNat world.players.size, { world with players := world.players.push {} })

/-- Adds the given number of players. -/
def addPlayers (world : World) : Nat → World
  | 0 => world
  | count + 1 => world.addPlayer.2.addPlayers count

/-- The entities alive, each with its identity, in the order of the slots. -/
def occupants (world : World) : List (EntityId × Entity) :=
  world.slots.toList.zipIdx.filterMap fun (slot, index) =>
    slot.entity.map fun entity => (⟨UInt32.ofNat index, slot.generation⟩, entity)

/-- The entities alive, in the order of their creation. -/
def census (world : World) : List (EntityId × Entity) :=
  world.occupants.mergeSort fun left right => left.2.serial ≤ right.2.serial

/-- The identities of the entities alive, in the order of their creation. -/
def live (world : World) : List EntityId :=
  world.census.map (·.1)

/-- The entities that a tick goes through: the active ones, then the standable
ones, then those of any other status except dormant.  Among equals the older
come first. -/
def tickOrder (world : World) : List EntityId :=
  let census := world.census
  let having := fun (wanted : Status → Bool) =>
    (census.filter fun occupant => wanted occupant.2.status).map (·.1)
  having (· = .active) ++ having (· = .standable) ++
    having fun status => match status with
      | .other _ => true
      | .active | .dormant | .standable => false

/-- The entity that a script names by a word. -/
def entityAt? (world : World) (handle : Word) : Option EntityId :=
  match handle.offset? with
  | none => none
  | some index =>
      match world.slots[index]? with
      | some ⟨generation, some _⟩ => some ⟨UInt32.ofNat index, generation⟩
      | _ => none

/-- The kind of an entity. -/
def kindOf? (world : World) (id : EntityId) : Option Word :=
  (world.entity? id).map (·.kind)

/-- A word is the number of something of which there are `count`. -/
def isNumbered (count number : Word) : Bool :=
  0 ≤ number && number < count

/-- The sector where an entity is, when it exists. -/
def sectorOf? (world : World) (id : EntityId) : Option Word :=
  ((world.entity? id).bind (·.sector)).filter (isNumbered world.sectorCount)

/-- The status of an entity. -/
def statusOf? (world : World) (id : EntityId) : Option Status :=
  (world.entity? id).map (·.status)

/-- The player nearest to an entity and its distance. -/
def nearestPlayer? (world : World) (id : EntityId) : Option (PlayerId × Word) :=
  if world.players.isEmpty then none
  else (world.entity? id).map fun entity => (0, entity.playerDistance)

/-- What scripts keep on an entity. -/
def stateOf? (world : World) (id : EntityId) : Option ActorState :=
  (world.entity? id).map (·.state)

/-- Changes what scripts keep on an entity. -/
def modifyState (world : World) (id : EntityId) (change : ActorState → ActorState) : World :=
  world.modify id fun entity => { entity with state := change entity.state }

/-- Gives an entity a status. -/
def setStatus (world : World) (id : EntityId) (status : Status) : World :=
  world.modify id fun entity => { entity with status }

/-- Moves an entity one step, which counts its general counter up. -/
def advanceMotion (world : World) (id : EntityId) : World :=
  let moved := world.modifyState id fun state => { state with count := state.count + 1 }
  { moved with motions := moved.motions + 1 }

/-- Records that the sleep of a standable entity has been checked. -/
def checkStandable (world : World) (id : EntityId) : World :=
  { world with standableChecks := world.standableChecks.push id }

/-- Frees every player whom an entity squishes. -/
def releasePlayers (world : World) (id : EntityId) : World :=
  { world with players := world.players.map fun player =>
      if player.squishedBy = some id then { player with squishedBy := none } else player }

/-- The answer to a probe. -/
def probe (world : World) (probe : Probe) : Bool :=
  world.answers.getD probe false

/-- The word by which a script removes its own entity. -/
def removedStatus : Word := -1

/-- Carries out an effect of the given entity. -/
def carryOut (world : World) (source : Option EntityId) (effect : Effect) :
    EffectAnswer × World :=
  match effect with
  | .spawn kind | .spawnInto kind =>
      let (spawned, world) := world.spawn kind (source.bind world.sectorOf?)
      (.value spawned.handle, world)
  | .moveEntity target dx dy dz =>
      (.value 0, world.modify target fun entity =>
        { entity with position :=
            ⟨entity.position.x + dx, entity.position.y + dy, entity.position.z + dz⟩ })
  | .changeStatus status =>
      match source with
      | none => (.value (-1), world)
      | some id =>
          if status = removedStatus then (.removed, world.remove id)
          else (.value 0, world.setStatus id (.ofWord status))
  | .shoot _ | .sound _ | .globalSound _ | .stopSound _ | .damage _ _ | .hitRadius _ _
  | .giveItem _ _ => (.value 0, world)

/-- Records an effect and carries it out. -/
def apply (world : World) (source : Option EntityId) (effect : Effect) :
    EffectAnswer × World :=
  { world with effects := world.effects.push ⟨source, effect⟩ }.carryOut source effect

end World

end ActorScript
